import IndexQuery.QueryText.Escape
import IndexQuery.SearchConfig
import IndexQuery.Tree
set_option autoImplicit false

/-! # Queries as text

`Tree.rendered` writes a tree in the query language, together with the parameters the text refers
to. Conjunctions are written side by side, in parentheses where they are nested; alternatives are a
tag set when all of them are exact tags, and a group otherwise. A search for nearest neighbours is
written behind its filter, with the bound on the distance as one more conjunct. -/

namespace IndexQuery

/-- A query text with the octets of its parameters. -/
structure RenderedQuery where
  query : String
  /-- the parameters, by name -/
  params : List (String × List UInt8)
deriving DecidableEq, Repr

namespace QueryText

/-! ## Literals -/

def lowerBound : Bound → List Char
  | .unbounded => ['-', 'i', 'n', 'f']
  | .inclusive x => numberText x
  | .exclusive x => '(' :: numberText x

def upperBound : Bound → List Char
  | .unbounded => ['+', 'i', 'n', 'f']
  | .inclusive x => numberText x
  | .exclusive x => '(' :: numberText x

def textPattern (mode : TextMode) (s : List Char) : List Char :=
  match mode with
  | .exact => phrase s
  | .starts => startsPattern s
  | .ends => endsPattern s
  | .contains => containsPattern s
  | .fuzzy => fuzzyPattern s

/-- A text literal; a pattern of several words is put in parentheses. -/
def textOperand (mode : TextMode) (s : List Char) : List Char :=
  let pattern := textPattern mode s
  if mode ≠ .exact ∧ ' ' ∈ pattern then '(' :: pattern ++ [')'] else pattern

def tagPattern (mode : TagMode) (s : List Char) : List Char :=
  match mode with
  | .exact => escapeTag s
  | .starts => escapeTag s ++ ['*']
  | .ends => '*' :: escapeTag s
  | .contains => '*' :: escapeTag s ++ ['*']

def tagSet (tags : List (List Char)) : List Char :=
  '\x7b' :: ['|'].intercalate tags ++ ['\x7d']

def term (key : String) (literal : Literal) : List Char :=
  let field := fieldRef key.toList
  match literal with
  | .text mode value => field ++ ':' :: textOperand mode value.toList
  | .tag mode value => field ++ ':' :: tagSet [tagPattern mode value.toList]
  | .numeric range =>
    field ++ ':' :: '[' :: lowerBound range.lower ++ ' ' :: upperBound range.upper ++ [']']
  | .geo circle =>
    field ++ ':' :: '[' :: circle.center.lon.text ++ ' ' :: circle.center.lat.text ++
      ' ' :: numberText circle.radius ++ ' ' :: circle.unit.word.toList ++ [']']
  | .missing => "ismissing(".toList ++ field ++ [')']

/-! ## Alternatives -/

/-- The value of an exact tag. -/
def exactTag? : Literal → Option (List Char)
  | .tag .exact value => some value.toList
  | _ => none

/-- Alternatives on a key: a single one stands alone, exact tags share a set, and all others form a
group. -/
def alternatives (key : String) (literals : List Literal) : List Char :=
  match literals with
  | [literal] => term key literal
  | _ =>
    match literals.mapM exactTag? with
    | some tags => fieldRef key.toList ++ ':' :: tagSet (tags.map escapeTag)
    | none => '(' :: ['|'].intercalate (literals.map (term key)) ++ [')']

end QueryText

open QueryText

namespace Tree

/-! ## Trees -/

mutual

/-- The text of a tree; `outermost` tells that it does not stand inside a conjunction. -/
def text (outermost : Bool) : Tree → List Char
  | root => ['*']
  | term key literal => QueryText.term key literal
  | intersect children =>
    let clauses := childTexts children
    let joined := [' '].intercalate clauses
    if outermost || clauses.length == 1 then joined else '(' :: joined ++ [')']
  | union key literals =>
    if literals.isEmpty then ['-', '*'] else alternatives key literals
  | negatedUnion key literals =>
    if literals.isEmpty then ['*'] else '-' :: alternatives key literals
  | knn filter _ => filter.text outermost

def childTexts : List Tree → List (List Char)
  | [] => []
  | child :: rest => child.text false :: childTexts rest

end

/-- The bound on the distance, as a conjunct. -/
def distanceBound (config : SearchConfig) (clause : KnnClause) (threshold : Double) : List Char :=
  fieldRef clause.key.toList ++ ":[VECTOR_RANGE ".toList ++ numberText threshold ++
    " $".toList ++ config.vectorParam.toList ++ [']']

/-- The conjuncts in front of a search for neighbours. The filter of all documents is left out when
there is a bound on the distance. -/
def knnFilters (config : SearchConfig) (filter : Tree) (clause : KnnClause) : List (List Char) :=
  match clause.threshold with
  | none => [filter.text true]
  | some threshold =>
    distanceBound config clause threshold :: if filter.isRoot then [] else [filter.text true]

/-- A search for neighbours behind its filter. -/
def knnText (config : SearchConfig) (filter : Tree) (clause : KnnClause) : List Char :=
  '(' :: [' '].intercalate (knnFilters config filter clause) ++
    ")=>[KNN ".toList ++ Nat.toDigits 10 clause.k ++ ' ' :: fieldRef clause.key.toList ++
    " $".toList ++ config.vectorParam.toList ++ " AS ".toList ++ config.scoreField.toList ++ [']']

/-- The text of a tree with its parameters. -/
def rendered (config : SearchConfig) : Tree → RenderedQuery
  | knn filter clause =>
    ⟨String.ofList (knnText config filter clause), [(config.vectorParam, clause.blob)]⟩
  | tree => ⟨String.ofList (tree.text true), []⟩

instance : ToString Tree := ⟨fun tree => (tree.rendered SearchConfig.default).query⟩

end Tree

end IndexQuery
