import StreamCheck.Proofs.Pipeline.Models

/-! What the properties of pipelines come down to: where the two branches of a model agree, and where no queue
in them is ever full. -/

namespace StreamCheck.Pipeline
open Network Smv

/-- A configuration has a model, which runs on every stream of numbers of the domain, and its property has a
formula there, which is true of the model exactly if the verdict is. -/
def Decides (c : Configuration) (verdict : Prop) : Prop :=
  ∀ archive : Archive, ∃ archive' compiled f, (modelOf c).run archive = .ok (some (.network compiled)) archive' ∧
    RunsOver c.domain compiled ∧ Formula.named? c.property (.network compiled) = some f ∧
      (f.TrueOf compiled.model ↔ verdict)

theorem Decides.congr {c : Configuration} {verdict verdict' : Prop} (h : Decides c verdict)
    (hverdict : verdict ↔ verdict') : Decides c verdict' := by
  rw [← hverdict]
  exact h

section
variable {c : Configuration} {q : Query} {P Q : Plan} {w : Workspace} {compiled : CompiledGraph} {verdict : Prop}

theorem decides_of_isModel (hquery : Query.ofName? c.query = some q)
    (hP : q.blueprint c.domain.toNat c.shape = some P) (hQ : q.counterpart c.domain.toNat c.shape = some Q)
    (h : ∀ w compiled, IsModel c P Q w compiled →
      ∃ f, Formula.named? c.property (.network compiled) = some f ∧ (f.TrueOf compiled.model ↔ verdict)) :
    Decides c verdict := by
  intro archive
  obtain ⟨archive', compiled, hrun, hmodel⟩ := exists_isModel hquery hP hQ archive
  obtain ⟨f, hf, htrue⟩ := h _ compiled hmodel
  exact ⟨archive', compiled, f, hrun, hmodel.runsOver, hf, htrue⟩

theorem IsModel.over (h : IsModel c P Q w compiled) {σ : Trace} (hσ : compiled.model.IsRun σ) :
    ((incoming w.nextPipe).stream σ).Over c.domain := by
  obtain ⟨port, hinputs, htype⟩ :=
    Catalog.inputs_built w (Catalog.domain_toNat_pos c) (Catalog.queue_toNat_pos c) P Q c.wiring?
  intro t
  have hfits := Workspace.fits_of_isRun h hσ (hinputs ▸ List.mem_cons_self) t
  rw [htype] at hfits
  exact hfits

def sizesOf (c : Configuration) : Sizes := ⟨c.domain, c.queue⟩

theorem clean_eq_self_of_over {x : Stream} {d : Int} (hx : x.Over d) : x.clean = x :=
  Stream.clean_eq_self fun t => (hx t).2

def leftPart (w : Workspace) (σ : Trace) : NodeId → Trace := Junction.part w.nextNode (w.nextNode + 1) σ

/-- What the nodes of the second branch do, behind a first one of a plan. -/
def rightPart (w : Workspace) (P : Plan) (σ : Trace) : NodeId → Trace :=
  Junction.part (w.nextNode + 1 + P.size) (w.nextNode + 1 + P.size + 1) σ

theorem IsModel.stands (wiring : Wiring) : Junction.Stands
    (Catalog.built w (Catalog.domain_toNat_pos c) (Catalog.queue_toNat_pos c) P Q (some wiring)) w.graphs.length
    (Catalog.junction w P Q) (Catalog.domain_toNat_pos c) (Catalog.queue_toNat_pos c) w.nextPipe wiring P Q
    (w.nextNode + 1) (w.nextNode + 1 + P.size + 1) :=
  Catalog.stands_built wiring

theorem IsModel.compile_eq (h : IsModel c P Q w compiled) {wiring : Wiring} (hwiring : c.wiring? = some wiring) :
    (Catalog.built w (Catalog.domain_toNat_pos c) (Catalog.queue_toNat_pos c) P Q (some wiring)).compile
      (sizesOf c) w.graphs.length = .ok compiled.model := by
  rw [← hwiring]
  exact h

theorem IsModel.courses (h : IsModel c P Q w compiled) {wiring : Wiring} (hwiring : c.wiring? = some wiring)
    {σ : Trace} (hσ : compiled.model.IsRun σ) :
    P.Course (sizesOf c) ((incoming w.nextPipe).stream σ) (leftPart w σ) ∧
      Q.Course (sizesOf c) ((incoming w.nextPipe).stream σ) (rightPart w P σ) := by
  have hleft := ((IsModel.stands wiring).left_course c.queue_pos (h.compile_eq hwiring) hσ).1
  have hright := ((IsModel.stands wiring).right_course c.queue_pos (h.compile_eq hwiring) hσ).1
  rw [clean_eq_self_of_over (h.over hσ)] at hleft hright
  exact ⟨hleft, hright⟩

theorem IsModel.exists_courses (h : IsModel c P Q w compiled) {wiring : Wiring} (hwiring : c.wiring? = some wiring)
    {x : Stream} (hx : x.Over c.domain) : ∃ σ, compiled.model.IsRun σ ∧
      P.Course (sizesOf c) x (leftPart w σ) ∧ Q.Course (sizesOf c) x (rightPart w P σ) := by
  obtain ⟨σ, hσ, hinput⟩ := h.runsOver x hx
  have hstream := hinput w.nextPipe (h.inputs_eq ▸ List.mem_cons_self)
  obtain ⟨hleft, hright⟩ := h.courses hwiring hσ
  rw [hstream] at hleft hright
  exact ⟨σ, hσ, hleft, hright⟩

/-! ### Equivalences -/

theorem IsModel.stepEquivalence_trueOf_iff (h : IsModel c P Q w compiled) (hwiring : c.wiring? = some .stepwise) :
    (Formula.stepEquivalence compiled.outputs).TrueOf compiled.model ↔ P.StepEquivalent Q (sizesOf c) := by
  have houtputs := h.outputs_eq
  simp only [hwiring] at houtputs
  have houtgoing {σ : Trace} (hσ : compiled.model.IsRun σ) :=
    (IsModel.stands .stepwise).stepwise_outgoing c.queue_pos (h.compile_eq hwiring) hσ
  rw [houtputs, Formula.stepEquivalence_trueOf_iff_agree (by omega) ?_]
  · constructor
    · intro hagree x hx σ τ hσ hτ
      obtain ⟨ρ, hρ, hleft, hright⟩ := h.exists_courses hwiring hx
      have hsame := hagree ρ hρ
      rw [(houtgoing hρ).1, (houtgoing hρ).2] at hsame
      rw [hσ.out_unique c.queue_pos hleft, hτ.out_unique c.queue_pos hright]
      exact hsame
    · intro hagree σ hσ
      obtain ⟨hleft, hright⟩ := h.courses hwiring hσ
      rw [(houtgoing hσ).1, (houtgoing hσ).2]
      exact hagree _ (h.over hσ) _ _ hleft hright
  · intro σ hσ
    obtain ⟨hleft, hright⟩ := h.courses hwiring hσ
    rw [(houtgoing hσ).1, (houtgoing hσ).2]
    exact ⟨hleft.clean_out c.queue_pos, hright.clean_out c.queue_pos⟩

theorem IsModel.exists_comparison (h : IsModel c P Q w compiled) (hwiring : c.wiring? = some .sequence)
    {x : Stream} (hx : x.Over c.domain) : ∃ run, compiled.model.IsRun run ∧ ∃ ρ,
      P.Course (sizesOf c) x (leftPart w run) ∧ Q.Course (sizesOf c) x (rightPart w P run) ∧
      (Kind.apply .equals .integer).Runs (sizesOf c) ρ ∧ ρ.input 0 = P.out (leftPart w run) ∧
      ρ.input 1 = Q.out (rightPart w P run) ∧ (outgoing (w.nextPipe + 1 : Nat)).stream run = ρ.output 0 := by
  obtain ⟨run, hrun, hleft, hright⟩ := h.exists_courses hwiring hx
  obtain ⟨ρ, hρ, hfirst, hsecond, hout⟩ :=
    (IsModel.stands .sequence).sequence_outgoing c.queue_pos (h.compile_eq hwiring) hrun
  exact ⟨run, hrun, ρ, hleft, hright, hρ, hfirst, hsecond, hout⟩

theorem IsModel.sequenceEquivalence_trueOf_iff (h : IsModel c P Q w compiled)
    (hwiring : c.wiring? = some .sequence) :
    (Formula.sequenceEquivalence compiled.outputs).TrueOf compiled.model ↔ P.SequenceEquivalent Q (sizesOf c) := by
  have houtputs := h.outputs_eq
  simp only [hwiring] at houtputs
  rw [houtputs, Formula.sequenceEquivalence_trueOf_iff]
  constructor
  · intro hall x hx σ τ ρ hσ hτ hρ hfirst hsecond t hfires
    -- some run of the model makes the same comparison, as the stream decides what it gets
    obtain ⟨run, hrun, ρ', hleft, hright, hρ', hfirst', hsecond', hout⟩ := h.exists_comparison hwiring hx
    have hinputs (j : Nat) (hj : j < 2) (t : Nat) : ρ.input j t = ρ'.input j t := by
      obtain rfl | rfl : j = 0 ∨ j = 1 := by omega
      · rw [hfirst, hfirst', hσ.out_unique c.queue_pos hleft]
      · rw [hsecond, hsecond', hτ.out_unique c.queue_pos hright]
    have houtput := hρ.output_unique c.queue_pos hρ' (p := 0)
      (fun j hj t => Prod.mk.inj (hinputs j hj t)) Nat.one_pos
    have hsame : ρ.output 0 = ρ'.output 0 := funext fun t => Prod.ext (houtput t).1 (houtput t).2
    rw [hsame, ← hout] at hfires ⊢
    exact hall run hrun t hfires
  · intro hall σ hσ t hfires
    obtain ⟨hleft, hright⟩ := h.courses hwiring hσ
    obtain ⟨ρ, hρ, hfirst, hsecond, hout⟩ :=
      (IsModel.stands .sequence).sequence_outgoing c.queue_pos (h.compile_eq hwiring) hσ
    rw [hout] at hfires ⊢
    exact hall _ (h.over hσ) _ _ ρ hleft hright hρ hfirst hsecond t hfires

theorem IsModel.booleanOutputs_eq (h : IsModel c P Q w compiled) (hwiring : c.wiring? = some .sequence) :
    compiled.booleanOutputs = compiled.outputs := by
  refine Workspace.booleanOutputs_compile (h.compile_eq hwiring) fun e he => ?_
  rw [(IsModel.stands .sequence).outer, Junction.outputs_joined] at he
  obtain rfl := List.mem_singleton.1 he
  exact Workspace.typeOf_leaf _ .output rfl

/-! ### Configurations -/

theorem wiring?_stepEquivalence (hproperty : c.property = Property.stepEquivalence.name) :
    c.wiring? = some .stepwise := by
  rw [Configuration.wiring?, wiring?, if_pos hproperty]

theorem wiring?_sequenceEquivalence (hproperty : c.property = Property.sequenceEquivalence.name) :
    c.wiring? = some .sequence := by
  rw [Configuration.wiring?, hproperty]
  rfl

theorem named?_name (p : Property) (m : Subject) : Formula.named? p.name m = p.formula? m := by
  cases p <;> rfl

section
variable (hquery : Query.ofName? c.query = some q) (hP : q.blueprint c.domain.toNat c.shape = some P)
  (hQ : q.counterpart c.domain.toNat c.shape = some Q)
include hquery hP hQ

theorem exists_comparison {x : Stream} (hx : x.Over c.domain) : ∃ σ τ ρ, P.Course (sizesOf c) x σ ∧
    Q.Course (sizesOf c) x τ ∧ (Kind.apply .equals .integer).Runs (sizesOf c) ρ ∧
      ρ.input 0 = P.out σ ∧ ρ.input 1 = Q.out τ := by
  let compared : Configuration := { c with property := Property.sequenceEquivalence.name }
  obtain ⟨_, compiled, -, h⟩ := exists_isModel (c := compared) hquery hP hQ default
  obtain ⟨run, -, ρ, hleft, hright, hρ, hfirst, hsecond, -⟩ :=
    h.exists_comparison (wiring?_sequenceEquivalence rfl) hx
  exact ⟨_, _, ρ, hleft, hright, hρ, hfirst, hsecond⟩

theorem decides_stepEquivalent (hproperty : c.property = Property.stepEquivalence.name) :
    Decides c (P.StepEquivalent Q (sizesOf c)) := by
  refine decides_of_isModel hquery hP hQ fun w compiled h => ⟨_, ?_,
    h.stepEquivalence_trueOf_iff (wiring?_stepEquivalence hproperty)⟩
  rw [hproperty, named?_name]
  rfl

theorem decides_sequenceEquivalent (hproperty : c.property = Property.sequenceEquivalence.name) :
    Decides c (P.SequenceEquivalent Q (sizesOf c)) := by
  have hwiring := wiring?_sequenceEquivalence hproperty
  refine decides_of_isModel hquery hP hQ fun w compiled h => ⟨_, ?_, h.sequenceEquivalence_trueOf_iff hwiring⟩
  have houtputs := h.outputs_eq
  simp only [hwiring] at houtputs
  -- the formula is there only if the one output carries truth values
  rw [hproperty, named?_name, Property.formula?, Property.overGraph?, h.booleanOutputs_eq hwiring, houtputs]
  rfl

theorem decides_of_stepEquivalent (hsame : P.StepEquivalent Q (sizesOf c)) (hproperty :
    c.property = Property.stepEquivalence.name ∨ c.property = Property.sequenceEquivalence.name) :
    Decides c True := by
  rcases hproperty with hstep | hsequence
  · exact (decides_stepEquivalent hquery hP hQ hstep).congr (iff_true_intro hsame)
  · exact (decides_sequenceEquivalent hquery hP hQ hsequence).congr
      (iff_true_intro (hsame.sequenceEquivalent c.queue_pos))

end

end
end StreamCheck.Pipeline
