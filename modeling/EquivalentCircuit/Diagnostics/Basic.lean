/-! Conditions met while converting. They never stop a conversion; they are listed in the order in
which they arose. -/

namespace EquivalentCircuit

inductive Severity where
  /-- The conversion went on with a documented fallback. -/
  | warning
  /-- The transformer was not converted. -/
  | error
deriving DecidableEq

def Severity.name : Severity → String
  | .warning => "warning"
  | .error => "error"

inductive Condition where
  /-- Two combined tap changers both regulate. -/
  | conflictingRegulation
  /-- The converted model cannot hold a feature. -/
  | unsupportedModeling
  | malformedInput
deriving DecidableEq

def Condition.name : Condition → String
  | .conflictingRegulation => "conflicting-regulation"
  | .unsupportedModeling => "unsupported-modeling"
  | .malformedInput => "malformed-input"

structure Issue where
  severity : Severity
  condition : Condition
  message : String
  entity : Option String
deriving DecidableEq

namespace Issue

def warning (condition : Condition) (message entity : String) : Issue :=
  ⟨.warning, condition, message, some entity⟩

def error (condition : Condition) (message entity : String) : Issue :=
  ⟨.error, condition, message, some entity⟩

def text (i : Issue) : String :=
  s!"[{i.severity.name}:{i.condition.name}] {i.message}" ++
    match i.entity with
    | some entity => s!" ({entity})"
    | none => ""

end Issue

abbrev Diagnostics := List Issue

namespace Diagnostics

def warningCount (d : Diagnostics) : Nat := d.countP (·.severity = .warning)

def errorCount (d : Diagnostics) : Nat := d.countP (·.severity = .error)

def countOf (d : Diagnostics) (c : Condition) : Nat := d.countP (·.condition = c)

def ofCondition (d : Diagnostics) (c : Condition) : Diagnostics := d.filter (·.condition = c)

def hasErrors (d : Diagnostics) : Bool := d.any (·.severity = .error)

/-- A count with its noun. -/
def counted (n : Nat) (noun : String) : String :=
  s!"{n} {noun}" ++ if n = 1 then "" else "s"

def summary (d : Diagnostics) : String :=
  match d.warningCount, d.errorCount with
  | 0, 0 => "No issues"
  | w, 0 => counted w "warning"
  | 0, e => counted e "error"
  | w, e => counted w "warning" ++ ", " ++ counted e "error"

/-- The summary and a line for each issue. -/
def text (d : Diagnostics) : String :=
  s!"Diagnostics: {d.summary}\n" ++ String.join (d.map fun i => s!"  {i.text}\n")

end Diagnostics

end EquivalentCircuit
