import GpuPlacement.Builtin.ExprChecks
/-!
The built-in rules for expressions and partitionings.
-/
namespace GpuPlacement.Builtin

open ExprRule TypeSignature

/-- Flat and nested types. -/
def columnTypes : TypeSignature := common ∪ nested

def leafRules : List ExprRule :=
  [(expression "Literal" "Holds a static value from the query").withOutput common,
    (expression "AttributeReference" "References an input column").withOutput columnTypes,
    ((expression "Alias" "Gives a column a name").withInputs columnTypes).withOutput columnTypes]

/-- A rule that takes and gives numbers. -/
def numericRule (name description : String) : ExprRule :=
  ((expression name description).withInputs numeric).withOutput numeric

def arithmeticRules : List ExprRule :=
  [numericRule "Add" "Addition",
    numericRule "Subtract" "Subtraction",
    numericRule "Multiply" "Multiplication",
    (numericRule "Divide" "Division").withCheck ExprCheck.ansiDivision,
    (numericRule "Remainder" "Remainder or modulo").withCheck ExprCheck.ansiDivision,
    (numericRule "UnaryMinus" "Negate a numeric value").withCheck ExprCheck.ansiOverflow,
    (numericRule "Abs" "Absolute value").withCheck ExprCheck.ansiOverflow]

/-- A rule that takes types of a signature and gives a truth value. -/
def predicateRule (name description : String) (inputs : TypeSignature) : ExprRule :=
  ((expression name description).withInputs inputs).withOutput boolean

def predicateRules : List ExprRule :=
  [predicateRule "EqualTo" "Check if the values are equal" common,
    predicateRule "LessThan" "< operator" common,
    predicateRule "LessThanOrEqual" "<= operator" common,
    predicateRule "GreaterThan" "> operator" common,
    predicateRule "GreaterThanOrEqual" ">= operator" common,
    predicateRule "And" "Logical AND" boolean,
    predicateRule "Or" "Logical OR" boolean,
    predicateRule "Not" "Boolean not operator" boolean,
    predicateRule "IsNull" "Checks if a value is null" columnTypes,
    predicateRule "IsNotNull" "Checks if a value is not null" columnTypes]

/-- A rule that takes and gives flat types. -/
def commonRule (name description : String) : ExprRule :=
  ((expression name description).withInputs common).withOutput common

def conversionRules : List ExprRule :=
  [commonRule "Coalesce" "Returns the first non-null argument if exists",
    commonRule "If" "IF expression",
    ((commonRule "Cast" "Convert a column of one type of data into another type").withCheck
      ExprCheck.cast).withConverter ExprCheck.foldCast]

def caseChangeNote : String :=
  "in some cases unicode characters change byte width when changing the case"

def textRules : List ExprRule :=
  [(((expression "Upper" "String uppercase operator").withInputs string).withOutput
      string).withIncompatibility caseChangeNote,
    (((expression "Lower" "String lowercase operator").withInputs string).withOutput
      string).withIncompatibility caseChangeNote,
    ((expression "Substring" "Substring operator").withInputs (string ∪ integral)).withOutput
      string,
    ((expression "Length" "String character length").withInputs string).withOutput integral]

def mathAndTimeRules : List ExprRule :=
  [((expression "Sqrt" "Square root").withInputs floating).withOutput floating,
    (((expression "Hour" "Returns the hour component of the string/timestamp").withInputs
      timestamp).withOutput integral).withCheck ExprCheck.utcOnly,
    ((expression "DateAdd" "Returns the date that is num_days after start_date").withInputs
      (date ∪ integral)).withOutput date]

def aggregateRules : List ExprRule :=
  [commonRule "SortOrder" "Sort order",
    (commonRule "AggregateExpression" "Aggregate expression").withCheck ExprCheck.aggregateOwner,
    ((expression "Count" "Count aggregate operator").withInputs columnTypes).withOutput integral,
    (numericRule "Sum" "Sum aggregate operator").withCheck ExprCheck.summation,
    (commonRule "Min" "Min aggregate operator").withCheck ExprCheck.nanOrder,
    (commonRule "Max" "Max aggregate operator").withCheck ExprCheck.nanOrder,
    (numericRule "Average" "Average aggregate operator").withCheck ExprCheck.summation]

def partitioningRules : List ExprRule :=
  [((partitioning "HashPartitioning" "Hash based partitioning").withInputs columnTypes).withCheck
      ExprCheck.hashableKeys,
    (partitioning "RangePartitioning" "Range partitioning").withInputs common,
    partitioning "SinglePartition" "Single partitioning",
    partitioning "RoundRobinPartitioning" "Round robin partitioning"]

def exprRules : List ExprRule :=
  leafRules ++ arithmeticRules ++ predicateRules ++ conversionRules ++ textRules
    ++ mathAndTimeRules ++ aggregateRules ++ partitioningRules

end GpuPlacement.Builtin
