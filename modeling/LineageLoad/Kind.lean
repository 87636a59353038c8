/-!
The three kinds of things a lineage store keeps, and values given once for each kind.
-/

namespace LineageLoad

/-- Artifacts are consumed and produced by executions; contexts group both. Every node is of one
kind, and so is every type, which describes nodes of its kind.
-/
inductive Kind where
  | artifact
  | execution
  | context
  deriving DecidableEq, Repr, Inhabited

namespace Kind

/-- The kinds in the order in which a store lists them. -/
def all : List Kind := [artifact, execution, context]

/-- The name of a node of the kind. -/
def label : Kind → String
  | artifact => "artifact"
  | execution => "execution"
  | context => "context"

/-- The name of a type of the kind. -/
def typeLabel : Kind → String
  | artifact => "artifact_type"
  | execution => "execution_type"
  | context => "context_type"

/-- The place of the kind in (all). -/
def position : Kind → Nat
  | artifact => 0
  | execution => 1
  | context => 2

end Kind

/-- One value for each kind. -/
structure PerKind (α : Type) where
  artifact : α
  execution : α
  context : α
  deriving DecidableEq, Repr, Inhabited

namespace PerKind

variable {α : Type}

def const (value : α) : PerKind α := ⟨value, value, value⟩

def get (values : PerKind α) : Kind → α
  | .artifact => values.artifact
  | .execution => values.execution
  | .context => values.context

def set (values : PerKind α) (kind : Kind) (value : α) : PerKind α :=
  match kind with
  | .artifact => { values with artifact := value }
  | .execution => { values with execution := value }
  | .context => { values with context := value }

/-- Every kind has the constant, by cases on the kind. -/
@[simp] theorem get_const (value : α) (kind : Kind)
    : (const value).get kind = value := by
  cases kind <;> rfl

/-- A replaced value is read back, by cases on the kind. -/
@[simp] theorem get_set_self (values : PerKind α) (kind : Kind) (value : α)
    : (values.set kind value).get kind = value := by
  cases kind <;> rfl

/-- Replacing the value of one kind keeps the others, by cases on both kinds. -/
theorem get_set_of_ne (values : PerKind α) {kind other : Kind} (value : α) (h : other ≠ kind)
    : (values.set kind value).get other = values.get other := by
  cases kind <;> cases other <;> first | rfl | exact absurd rfl h

/-- Two families of values are equal if they agree at every kind. -/
theorem ext_get {left right : PerKind α} (h : ∀ kind, left.get kind = right.get kind)
    : left = right := by
  obtain ⟨a, e, c⟩ := left
  obtain ⟨a', e', c'⟩ := right
  have ha := h .artifact
  have he := h .execution
  have hc := h .context
  simp only [get] at ha he hc
  subst ha he hc
  rfl

end PerKind

end LineageLoad
