import StreamCheck.Smv.Expr
import StreamCheck.Smv.State

/-! Runs: the sequences of states that a model allows, and what it means that a temporal statement is
true of a model. All assignments take effect at once, and what no assignment fixes is free to hold any
value of its type. -/

namespace StreamCheck.Smv

abbrev Trace := Nat → State

def Trace.inside (σ : Trace) (id : Nat) : Trace := fun t => (σ t).inside id

def Cell.spot (c : Cell) : Spot := ⟨.own c.name, c.slot.map Int.ofNat⟩

def Declaration.cells (d : Declaration) : List (Cell × Scalar) :=
  match d.type with
  | .scalar t => [(⟨d.name, none⟩, t)]
  | .array n t => (List.range n.toNat).map fun i => (⟨d.name, some i⟩, t)
  | .part .. => []

def Assign.Obeyed (a : Assign) (σ : Trace) : Prop :=
  match a.timing with
  | .always => ∀ t, σ t a.cell.spot = a.update.eval (σ t)
  | .first => σ 0 a.cell.spot = a.update.eval (σ 0)
  | .after => ∀ t, σ (t + 1) a.cell.spot = a.update.eval (σ t)

namespace Module

def Fixes (m : Module) (c : Cell) (t : Nat) : Prop :=
  ∃ a ∈ m.assigns, a.cell = c ∧
    (a.timing = .always ∨ a.timing = if t = 0 then .first else .after)

/-- A trace is one that the module allows: every definition and assignment holds, and a cell that no
assignment fixes has a value of its type. What the parameters hold is left open. -/
structure Obeyed (m : Module) (σ : Trace) : Prop where
  defines : ∀ d ∈ m.defines, ∀ t, σ t ⟨.own d.1, none⟩ = d.2.eval (σ t)
  assigns : ∀ a ∈ m.assigns, a.Obeyed σ
  free : ∀ d ∈ m.declarations, ∀ x ∈ d.cells, ∀ t, ¬ m.Fixes x.1 t →
    (σ t x.1.spot).Fits x.2

end Module

namespace Instance

mutual

/-- A trace is one that an instance allows where it stands: its parameters hold what its arguments
hold, and it obeys its module and its parts. -/
def Obeyed : Instance → Trace → Prop
  | mk id args m parts, σ =>
    (∀ x ∈ m.parameters.zip args, ∀ t, σ t ⟨.within id x.1, none⟩ = σ t ⟨x.2, none⟩) ∧
      m.Obeyed (σ.inside id) ∧ AllObeyed parts (σ.inside id)

def AllObeyed : List Instance → Trace → Prop
  | [], _ => True
  | i :: is, σ => i.Obeyed σ ∧ AllObeyed is σ

end

end Instance

def Model.IsRun (m : Model) (σ : Trace) : Prop := m.main.Obeyed σ ∧ Instance.AllObeyed m.parts σ

/-- A statement holds at a moment of one of several runs. The runs from a state on are those that
share the past up to it. -/
def Temporal.Holds (runs : Trace → Prop) : Temporal → Trace → Nat → Prop
  | now e, σ, t => (e.eval (σ t)).isTrue
  | paren f, σ, t => f.Holds runs σ t
  | not f, σ, t => ¬ f.Holds runs σ t
  | and f g, σ, t => f.Holds runs σ t ∧ g.Holds runs σ t
  | or f g, σ, t => f.Holds runs σ t ∨ g.Holds runs σ t
  | implies f g, σ, t => f.Holds runs σ t → g.Holds runs σ t
  | next f, σ, t => f.Holds runs σ (t + 1)
  | eventually f, σ, t => ∃ u, t ≤ u ∧ f.Holds runs σ u
  | always f, σ, t => ∀ u, t ≤ u → f.Holds runs σ u
  | possibly f, σ, t =>
    ∃ τ, runs τ ∧ (∀ i, i ≤ t → τ i = σ i) ∧ ∃ u, t ≤ u ∧ f.Holds runs τ u
  | invariably f, σ, t =>
    ∀ τ, runs τ → (∀ i, i ≤ t → τ i = σ i) → ∀ u, t ≤ u → f.Holds runs τ u

/-- A statement is true of a model: it holds in the first state of every run. -/
def Model.Satisfies (m : Model) (f : Temporal) : Prop :=
  ∀ σ, m.IsRun σ → f.Holds m.IsRun σ 0

end StreamCheck.Smv
