/-! Names in statement text. A name is quoted where it is reserved or no plain lower-case word;
a parameter's name is never quoted, and what it may not hold is replaced. -/
namespace Transact.Sql

def reservedWords : List String :=
  ["all", "analyse", "analyze", "and", "any", "array", "as", "asc", "asymmetric", "authorization", "between",
   "binary", "both", "case", "cast", "check", "collate", "column", "constraint", "create", "cross",
   "current_date", "current_role", "current_time", "current_timestamp", "current_user", "default",
   "deferrable", "desc", "distinct", "do", "else", "end", "except", "false", "for", "foreign", "freeze",
   "from", "full", "grant", "group", "having", "ilike", "in", "initially", "inner", "intersect", "into", "is",
   "isnull", "join", "leading", "left", "like", "limit", "localtime", "localtimestamp", "natural", "new",
   "not", "notnull", "null", "off", "offset", "old", "on", "only", "or", "order", "outer", "overlaps",
   "placing", "primary", "references", "right", "select", "session_user", "set", "similar", "some",
   "symmetric", "table", "then", "to", "trailing", "true", "union", "unique", "user", "using", "verbose",
   "when", "where"]

/-- Small letters and digits; also the two small letters whose capitals are plain ones. -/
def isPlainChar (c : Char) : Bool := c.isLower || c.isDigit || "_$ſı".toList.contains c

def startsPlainly : List Char → Bool
  | [] => false
  | c :: _ => !c.isDigit && c != '$'

/-- A line end may follow a plain word. -/
def isPlain (name : String) : Bool :=
  let word := if name.toList.getLast? = some '\n' then name.toList.dropLast else name.toList
  word.all isPlainChar && startsPlainly word && !reservedWords.contains name

def quote (name : String) : String :=
  String.ofList ('"' :: name.toList.flatMap (fun c => if c = '"' then ['"', '"'] else [c]) ++ ['"'])

def identifier (name : String) : String := if isPlain name then name else quote name

/-- What stands in a parameter's name for a character. -/
def parameterChar : Char → Char
  | '%' => 'P'
  | '(' => 'A'
  | ')' => 'Z'
  | ':' => 'C'
  | '.' | '[' | ']' | ' ' => '_'
  | c => c

def parameterName (name : String) : String := String.ofList (name.toList.map parameterChar)

/-- The first of these that is not taken: the name, the name numbered one, numbered two, … -/
def freshName (taken : List String) (name : String) : String :=
  let numbered := (List.range taken.length).map fun i => name ++ "__" ++ toString (i + 1)
  ((name :: numbered).find? (!taken.contains ·)).getD name

/-- The names of parameters that stand for columns; where two would be the same, the later is
numbered. -/
def parameterNames (columns : List String) : List String :=
  columns.foldl (fun taken column => taken ++ [freshName taken (parameterName column)]) []

def isGap (c : Char) : Bool := "%() $.[]:".toList.contains c

def fillGaps : List Char → List Char
  | [] => []
  | c :: rest =>
    if isGap c then
      match rest with
      | d :: _ => if isGap d then fillGaps rest else '_' :: fillGaps rest
      | [] => ['_']
    else c :: fillGaps rest

def trimUnderscores (cs : List Char) : List Char :=
  ((cs.dropWhile (· == '_')).reverse.dropWhile (· == '_')).reverse

def longestName : Nat := 9993

def shortened (name : String) : String :=
  if name.length ≤ longestName then name else String.ofList (name.toList.take longestName) ++ "_1"

/-- The name of the only parameter that is compared with a column: the column's, without
underscores at its ends, and the first number that no label of the statement has. -/
def comparedName (labels : List String) (column : String) : String :=
  let body := String.ofList (trimUnderscores (fillGaps column.toList))
  shortened (body ++ "_" ++ toString (labels.count body + 1))

end Transact.Sql
