namespace RecordLogic.Filter

/-- How a condition compares its field. -/
inductive ConditionOperator where
  | equal
  | notEqual
  | lessThan
  | lessThanOrEqual
  | greaterThan
  | greaterThanOrEqual
  | between
  | notBetween
  | isIn
  | isNotIn
  | isEmpty
  | isNotEmpty
  | contains
  | notContains
  | minLength
  | maxLength
deriving DecidableEq

namespace ConditionOperator

def all : List ConditionOperator :=
  [equal, notEqual, lessThan, lessThanOrEqual, greaterThan, greaterThanOrEqual, between, notBetween,
    isIn, isNotIn, isEmpty, isNotEmpty, contains, notContains, minLength, maxLength]

def name : ConditionOperator → String
  | equal => "Equal"
  | notEqual => "NotEqual"
  | lessThan => "LessThan"
  | lessThanOrEqual => "LessThanOrEqual"
  | greaterThan => "GreaterThan"
  | greaterThanOrEqual => "GreaterThanOrEqual"
  | between => "Between"
  | notBetween => "NotBetween"
  | isIn => "In"
  | isNotIn => "NotIn"
  | isEmpty => "Empty"
  | isNotEmpty => "NotEmpty"
  | contains => "Contains"
  | notContains => "NotContains"
  | minLength => "MinLength"
  | maxLength => "MaxLength"

def ofName? (s : String) : Option ConditionOperator :=
  all.find? (·.name = s)

/-- The value is a pair of bounds. -/
def isRange : ConditionOperator → Bool
  | between | notBetween => true
  | _ => false

/-- The value is a list of candidates. -/
def isMembership : ConditionOperator → Bool
  | isIn | isNotIn => true
  | _ => false

/-- The value is a number. -/
def isLengthBound : ConditionOperator → Bool
  | minLength | maxLength => true
  | _ => false

/-- A value is looked at. -/
def takesValue : ConditionOperator → Bool
  | isEmpty | isNotEmpty => false
  | _ => true

theorem ofName?_name (op : ConditionOperator) : ofName? op.name = some op := by
  cases op <;> decide

end ConditionOperator

/-- How a group combines its children. -/
inductive GroupOperator where
  | and
  | or
  | not
deriving DecidableEq, Inhabited

namespace GroupOperator

def name : GroupOperator → String
  | and => "And"
  | or => "Or"
  | not => "Not"

def ofName? (s : String) : Option GroupOperator :=
  [and, or, not].find? (·.name = s)

theorem ofName?_name (op : GroupOperator) : ofName? op.name = some op := by
  cases op <;> decide

end GroupOperator

/-- What the value of a condition stands for: itself, a field of the record or a variable that the
server knows. -/
inductive ValueSource where
  | constant
  | field
  | environment
deriving DecidableEq

namespace ValueSource

def name : ValueSource → String
  | constant => "Constant"
  | field => "Field"
  | environment => "Environment"

def ofName? (s : String) : Option ValueSource :=
  [constant, field, environment].find? (·.name = s)

theorem ofName?_name (source : ValueSource) : ofName? source.name = some source := by
  cases source <;> decide

end ValueSource

end RecordLogic.Filter
