import Transact.Value.Integer
import Transact.Value.Text
import Transact.Decimal.Significant
import Transact.Text.Points

/-! Message templates: `%` marks the places of the arguments, with flags, a width and a
precision. A single object gives its fields to `%(key)` marks. -/
namespace Transact.Log

inductive TemplateError where
  | tooFew
  | tooMany
  | incomplete
  | incompleteKey
  | noObject
  | missingKey (key : String)
  /-- A list, or bytes, have no keys. -/
  | keyOfItems (items : String)
  | unsupported (mark : Char) (index : Nat)
  | notReal (mark : Char) (typeName : String)
  | notInteger (mark : Char) (typeName : String)
  | notFloat (typeName : String)
  | tooLargeForFloat
  | notCharacter
  | characterOutOfRange
  | starNotInteger
  | starTooLarge (word : String)
  | widthTooBig
  | precisionTooBig
  | tooManyDigits
  | noRoom
  | integer (error : Value.IntegerError)
deriving DecidableEq, Repr

def TemplateError.message : TemplateError → String
  | .tooFew => "not enough arguments for format string"
  | .tooMany => "not all arguments converted during string formatting"
  | .incomplete => "incomplete format"
  | .incompleteKey => "incomplete format key"
  | .noObject => "format requires a mapping"
  | .missingKey key => Text.quoted key
  | .keyOfItems items => items ++ " indices must be integers or slices, not str"
  | .unsupported mark index =>
    let shown := if 0x20 ≤ mark.toNat ∧ mark.toNat < 0x80 then mark else '?'
    "unsupported format character '" ++ String.singleton shown ++ "' (0x"
      ++ String.ofList (Nat.toDigits 16 mark.toNat) ++ ") at index " ++ toString index
  | .notReal mark typeName =>
    "%" ++ String.singleton mark ++ " format: a real number is required, not " ++ typeName
  | .notInteger mark typeName =>
    "%" ++ String.singleton mark ++ " format: an integer is required, not " ++ typeName
  | .notFloat typeName => "must be real number, not " ++ typeName
  | .tooLargeForFloat => "int too large to convert to float"
  | .notCharacter => "%c requires int or char"
  | .characterOutOfRange => "%c arg not in range(0x110000)"
  | .starNotInteger => "* wants int"
  | .starTooLarge word => "Python int too large to convert to C " ++ word
  | .widthTooBig => "width too big"
  | .precisionTooBig => "precision too big"
  | .tooManyDigits => "precision too large"
  | .noRoom => ""
  | .integer error => error.message

structure Flags where
  left : Bool := false
  plus : Bool := false
  space : Bool := false
  alternate : Bool := false
  zero : Bool := false

structure Layout where
  flags : Flags := {}
  width : Nat := 0
  precision : Option Nat := none

/-- What a template is filled with: values in order, or one value, which gives its fields by their
keys if it has any. -/
inductive Arguments where
  | several (values : List Value)
  | single (value : Value)

namespace Arguments

/-- One object alone is meant for its fields. -/
def ofList : List Value → Arguments
  | [.object fields] => if fields.isEmpty then several [.object []] else single (.object fields)
  | values => several values

def hold : Arguments → Bool
  | several values => !values.isEmpty
  | single value => value.holds

end Arguments

/-- What is left of the arguments; if `exact`, none may be left over. -/
structure Supply where
  fields : Option Value
  rest : List Value
  exact : Bool

namespace Supply

def isContainer : Value → Bool
  | .object _ | .list _ | .bytes _ => true
  | _ => false

def ofArguments : Arguments → Supply
  | .several values => ⟨none, values, true⟩
  | .single value => if isContainer value then ⟨some value, [value], false⟩ else ⟨none, [value], true⟩

def next (s : Supply) : Except TemplateError (Value × Supply) :=
  match s.rest with
  | v :: rest => .ok (v, { s with rest })
  | [] => .error .tooFew

def field (s : Supply) (key : String) : Except TemplateError Supply :=
  match s.fields with
  | none => .error .noObject
  | some (.list _) => .error (.keyOfItems "list")
  | some (.bytes _) => .error (.keyOfItems "byte")
  | some o =>
    match o.field? key with
    | some v => .ok { s with rest := [v], exact := false }
    | none => .error (.missingKey key)

end Supply

/-- The key up to the parenthesis that closes the first one. -/
def takeKey : Nat → List Char → Option (List Char × List Char)
  | _, [] => none
  | depth, c :: rest =>
    if c == ')' then
      if depth = 0 then some ([], rest) else (takeKey (depth - 1) rest).map fun (k, r) => (c :: k, r)
    else (takeKey (if c == '(' then depth + 1 else depth) rest).map fun (k, r) => (c :: k, r)

def takeFlags : Flags → List Char → Flags × List Char
  | f, '-' :: rest => takeFlags { f with left := true } rest
  | f, '+' :: rest => takeFlags { f with plus := true } rest
  | f, ' ' :: rest => takeFlags { f with space := true } rest
  | f, '#' :: rest => takeFlags { f with alternate := true } rest
  | f, '0' :: rest => takeFlags { f with zero := true } rest
  | f, rest => (f, rest)

def number (cs : List Char) : Nat := cs.foldl (fun n c => 10 * n + (c.toNat - 0x30)) 0

/-- A number in the template, or a star for one among the arguments. Both are bounded: the
number by `limit`, the argument by a signed word with that greatest value. -/
def takeCount (limit : Nat) (word : String) (tooBig : TemplateError) (s : Supply) :
    List Char → Except TemplateError (Int × List Char × Supply)
  | '*' :: rest => do
    let (v, s) ← s.next
    let n ← match v with
      | .int n => pure n
      | .bool b => pure (if b then 1 else 0)
      | _ => throw .starNotInteger
    if n > limit || n < -limit - 1 then throw (.starTooLarge word)
    return (n, rest, s)
  | cs =>
    let n := number (cs.takeWhile Char.isDigit)
    if n > limit then .error tooBig else .ok (n, cs.dropWhile Char.isDigit, s)

def takeWidth := takeCount 0x7fffffffffffffff "ssize_t" .widthTooBig

def takePrecision := takeCount 0x7fffffff "int" .precisionTooBig

/-- What a field of that size lacks to the width. -/
def Layout.padCount (l : Layout) (size : Nat) : Nat := l.width - size

def pad (l : Layout) (sign body : String) (fill : Char) : String :=
  let padding (c : Char) := String.ofList (List.replicate (l.padCount (sign.length + body.length)) c)
  if l.flags.left then sign ++ body ++ padding ' '
  else if fill == '0' then sign ++ padding '0' ++ body
  else padding ' ' ++ sign ++ body

def signOf (l : Layout) (negative : Bool) : String :=
  if negative then "-" else if l.flags.plus then "+" else if l.flags.space then " " else ""

def textField (l : Layout) (text : String) : String :=
  let cut := match l.precision with
    | some p => String.ofList (text.toList.take p)
    | none => text
  pad l "" cut ' '

/-- A precision does not cut a single character. -/
def pointField (l : Layout) (point : Nat) : Text.Points :=
  let padding := List.replicate (l.padCount 1) 0x20
  if l.flags.left then point :: padding else padding ++ [point]

def integerField (l : Layout) (mark : Char) (n : Int) : String :=
  let base := if mark == 'x' || mark == 'X' then 16 else if mark == 'o' then 8 else 10
  let lower := String.ofList (Nat.toDigits base n.natAbs)
  let digits := Double.padLeft (l.precision.getD 0) (if mark == 'X' then lower.toUpper else lower)
  let base := if l.flags.alternate && base != 10 then "0" ++ String.singleton mark else ""
  pad l (signOf l (n < 0) ++ base) digits (if l.flags.zero then '0' else ' ')

def floatField (l : Layout) (mark : Char) (x : Double) : String :=
  let p := l.precision.getD 6
  let size : Double := { x with negative := false }
  let full := l.flags.alternate
  let body := match mark with
    | 'e' => size.exponential full "e" p
    | 'E' => (size.exponential full "E" p).toUpper
    | 'g' => size.general full "e" p
    | 'G' => (size.general full "E" p).toUpper
    | 'F' => (size.fixed full p).toUpper
    | _ => size.fixed full p
  pad l (signOf l (x.negative && !x.isNaN)) body (if l.flags.zero then '0' else ' ')

def asInteger (mark : Char) (v : Value) : Except TemplateError Int :=
  let wholeOnly := mark == 'x' || mark == 'X' || mark == 'o'
  match v with
  | .bool b => .ok (if b then 1 else 0)
  | .int n => .ok n
  | .float _ | .uuid _ =>
    if wholeOnly then .error (.notInteger mark v.typeName) else v.toInt.mapError .integer
  | _ => .error (if wholeOnly then .notInteger mark v.typeName else .notReal mark v.typeName)

def asDouble (v : Value) : Except TemplateError Double :=
  match v with
  | .bool b => .ok (.ofDecimal false (if b then 1 else 0) 0)
  | .int n =>
    let x := Double.ofDecimal (n < 0) n.natAbs 0
    if x.isFinite then .ok x else .error .tooLargeForFloat
  | .float x => .ok x
  | _ => .error (.notFloat v.typeName)

/-- A code point, which may be a surrogate. -/
def asPoint (v : Value) : Except TemplateError Nat :=
  match v with
  | .bool b => .ok b.toNat
  | .int n => if 0 ≤ n ∧ n < 0x110000 then .ok n.toNat else .error .characterOutOfRange
  | .text s =>
    match Text.points s with
    | [point] => .ok point
    | _ => .error .notCharacter
  | _ => .error .notCharacter

def asciiOnly (text : String) : String :=
  String.ofList (text.toList.flatMap fun c =>
    if c.toNat < 0x80 then [c]
    else if c.toNat < 0x100 then '\\' :: 'x' :: Text.hex 2 c.toNat
    else if c.toNat < 0x10000 then '\\' :: 'u' :: Text.hex 4 c.toNat
    else '\\' :: 'U' :: Text.hex 8 c.toNat)

/-- The longest run of digits a sign and a base mark still fit before. -/
def mostDigits : Nat := 0x7ffffffc

/-- One argument at its place; `index` is where its mark stands in the template. -/
def field (l : Layout) (mark : Char) (index : Nat) (v : Value) : Except TemplateError Text.Points :=
  match mark with
  | 's' => .ok (Text.points (textField l v.plain))
  | 'r' => .ok (Text.points (textField l v.literal))
  | 'a' => .ok (Text.points (textField l (asciiOnly v.literal)))
  | 'd' | 'i' | 'u' | 'x' | 'X' | 'o' => do
    let n ← asInteger mark v
    if l.precision.getD 0 > mostDigits then throw .tooManyDigits
    return Text.points (integerField l mark n)
  | 'e' | 'E' | 'f' | 'F' | 'g' | 'G' => (asDouble v).map fun x => Text.points (floatField l mark x)
  | 'c' => (asPoint v).map (pointField l)
  | _ => .error (.unsupported mark index)

/-- No line has room for a field wider than this. -/
def widestField : Nat := 0x1000000000

/-- The layout between a percent sign and its mark. -/
def takeLayout (s : Supply) (cs : List Char) : Except TemplateError (Layout × List Char × Supply) := do
  let (flags, afterFlags) := takeFlags {} cs
  let (width, afterWidth, s) ← takeWidth s afterFlags
  if width.natAbs > widestField then throw .noRoom
  let flags := if width < 0 then { flags with left := true } else flags
  let (precision, afterPrecision, s) ← match afterWidth with
    | '.' :: rest => do
      let (p, rest, s) ← takePrecision s rest
      pure (some p.toNat, rest, s)
    | rest => pure (none, rest, s)
  let afterSize := match afterPrecision with
    | c :: rest => if c == 'h' || c == 'l' || c == 'L' then rest else afterPrecision
    | [] => []
  return ({ flags, width := width.natAbs, precision }, afterSize, s)

/-- Every pass takes at least one character, so the length bounds the passes. -/
def fill (total : Nat) : Nat → Supply → List Char → Except TemplateError Text.Points
  | 0, _, _ => .ok []
  | _, s, [] => if s.exact && !s.rest.isEmpty then .error .tooMany else .ok []
  | fuel + 1, s, '%' :: '%' :: rest => return '%'.toNat :: (← fill total fuel s rest)
  | fuel + 1, s, '%' :: rest => do
    let (s, rest) ← match rest with
      | '(' :: inner =>
        match s.fields with
        | none => throw .noObject
        | some _ =>
          match takeKey 0 inner with
          | some (key, rest) => pure (← s.field (String.ofList key), rest)
          | none => throw .incompleteKey
      | rest => pure (s, rest)
    let (layout, rest, s) ← takeLayout s rest
    match rest with
    | [] => throw .incomplete
    | mark :: rest =>
      let (v, s) ← s.next
      let shown ← field layout mark (total - rest.length - 1) v
      return shown ++ (← fill total fuel s rest)
  | fuel + 1, s, c :: rest => return c.toNat :: (← fill total fuel s rest)

/-- Without arguments a template is the message itself. -/
def format (template : String) (args : Arguments) : Except TemplateError Text.Points :=
  if args.hold then
    let cs := template.toList
    fill cs.length (cs.length + 1) (.ofArguments args) cs
  else .ok (Text.points template)

end Transact.Log
