/-! # SQL filters

A filter is a boolean SQL expression over the columns of a row. Chains of conjunctions and of
disjunctions are built flat, and a chain of one item is that item. A whole filter may be absent:
then every row is accepted and no text is written.
-/

namespace Selection.Sql

/-- A comparison of a column. The table is empty for a column of the row itself. -/
structure Condition where
  table : String
  column : String
  comparator : String
  value : String
deriving DecidableEq

namespace Condition

/-- The column with its table before it. -/
def columnRef (c : Condition) : String :=
  if c.table.isEmpty then c.column else c.table ++ "." ++ c.column

def text (c : Condition) : String :=
  c.columnRef ++ " " ++ c.comparator ++ " " ++ c.value

end Condition

/-- A boolean SQL expression. -/
inductive Filter where
  | leaf (condition : Condition)
  | patIndex (column pattern : String)
  | exists (table : String) (filter : Option Filter)
  /-- Accepts no row. -/
  | never
  | not (item : Filter)
  | and (items : List Filter)
  | or (items : List Filter)

namespace Filter

/-! ## Building -/

/-- The items of a conjunction, and any other filter as the only item. -/
def conjuncts : Filter → List Filter
  | and items => items
  | f => [f]

/-- The items of a disjunction, and any other filter as the only item. -/
def disjuncts : Filter → List Filter
  | or items => items
  | f => [f]

/-- The conjunction of some filters; conjunctions among them give their items. -/
def conj (filters : List Filter) : Filter :=
  match filters.flatMap conjuncts with
  | [f] => f
  | items => and items

/-- The disjunction of some filters; disjunctions among them give their items. -/
def disj (filters : List Filter) : Filter :=
  match filters.flatMap disjuncts with
  | [f] => f
  | items => or items

/-- The negation of a filter; a negation is undone. -/
def neg : Filter → Filter
  | not f => f
  | f => not f

/-! ## Text -/

mutual

def text : Filter → String
  | leaf c => c.text
  | patIndex column pattern => "PATINDEX(" ++ pattern ++ ", " ++ column ++ ") > 0"
  | .exists table filter => "EXISTS (SELECT 1 FROM " ++ table ++ whereText filter ++ ")"
  | never => "1 = 0"
  | not f => "NOT (" ++ f.text ++ ")"
  | and items => "(" ++ " AND ".intercalate (texts items) ++ ")"
  | or items => "(" ++ " OR ".intercalate (texts items) ++ ")"

/-- The clause of an optional filter, with a blank before it. -/
def whereText : Option Filter → String
  | none => ""
  | some f => " WHERE " ++ f.text

def texts : List Filter → List String
  | [] => []
  | f :: rest => f.text :: texts rest

end

/-! ## Tables -/

mutual

/-- The tables of the sub-queries, in the order of the text. -/
def allTables : Filter → List String
  | leaf _ | patIndex .. | never => []
  | .exists table filter => table :: optionTables filter
  | not f => f.allTables
  | and items | or items => listTables items

def optionTables : Option Filter → List String
  | none => []
  | some f => f.allTables

def listTables : List Filter → List String
  | [] => []
  | f :: rest => f.allTables ++ listTables rest

end

/-- Puts a name among names in ascending order, unless it is there. -/
def insertName (name : String) : List String → List String
  | [] => [name]
  | n :: rest =>
    match compare name n with
    | .lt => name :: n :: rest
    | .eq => n :: rest
    | .gt => n :: insertName name rest

/-- The tables of the sub-queries in ascending order, each once. -/
def tables (f : Filter) : List String :=
  f.allTables.foldr insertName []

end Filter

end Selection.Sql
