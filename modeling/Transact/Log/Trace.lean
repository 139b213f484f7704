import Transact.Error.Text

/-! How an error is printed: behind the errors that it came of, and under the calls that it came through. -/
namespace Transact.Log

/-- A call that an error came through. -/
structure Frame where
  file : String
  line : Nat
  name : String
  /-- What the source says there, and the marks below it; nothing where it is not at hand. -/
  source : List String := []
deriving DecidableEq, Repr

namespace Frame

def lines (f : Frame) : List String :=
  ("  File \"" ++ f.file ++ "\", line " ++ toString f.line ++ ", in " ++ f.name) :: f.source.map ("    " ++ ·)

/-- At the same place: a call that repeats the one before it. -/
def isAgain (f g : Frame) : Bool := f.file == g.file && f.line == g.line && f.name == g.name

def mostShown : Nat := 3

/-- Of calls that repeat each other the first ones are shown, and how many there were more. -/
def repeatedLines (calls : List Frame) : List String :=
  let more := calls.length - mostShown
  (calls.take mostShown).flatMap lines ++
    if more = 0 then [] else
      ["  [Previous line repeated " ++ toString more ++ " more time" ++ (if more = 1 then "" else "s") ++ "]"]

end Frame

/-- An error on the page: the calls that it came through, outermost first, what kind of error it is and what it
says, and what has been noted with it. -/
structure Printed where
  calls : List Frame := []
  heading : String
  notes : List String := []
deriving DecidableEq, Repr

def Printed.lines (p : Printed) : List String :=
  (if p.calls.isEmpty then [] else
    "Traceback (most recent call last):" :: (p.calls.splitBy Frame.isAgain).flatMap Frame.repeatedLines)
  ++ p.heading :: p.notes

/-- What an earlier error was to the one that came of it: what it was raised from, or what was being dealt with. -/
inductive Occasion where
  | cause
  | context
deriving DecidableEq, Repr

def Occasion.sentence : Occasion → String
  | cause => "The above exception was the direct cause of the following exception:"
  | context => "During handling of the above exception, another exception occurred:"

/-- What is printed with an error. -/
structure Trace where
  calls : List Frame := []
  /-- What stands for the error itself, where its kind is a caller's own. -/
  heading : Option String := none
  notes : List String := []
  /-- The errors before it, the first one first. -/
  earlier : List (Printed × Occasion) := []
deriving DecidableEq, Repr

namespace Trace

def earlierLines (t : Trace) : List String :=
  t.earlier.flatMap fun (p, occasion) => p.lines ++ ["", occasion.sentence, ""]

def text (t : Trace) (e : Error) : String :=
  "\n".intercalate (t.earlierLines ++ Printed.lines ⟨t.calls, t.heading.getD e.logText, t.notes⟩)

end Trace
end Transact.Log
