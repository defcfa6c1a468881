import StreamCheck.Proofs.Pipeline.Guards
import StreamCheck.Proofs.Pipeline.Provenance
import StreamCheck.Proofs.Pipeline.Verdicts
import StreamCheck.Proofs.Verification.Batches

/-! Applicability: which configurations have an experiment. A graph has a formula for every property but that of the
counter, except that there are truth values to speak of only where two branches are compared. -/

namespace StreamCheck
open Smv Network Pipeline

def Subject.isWritable : Subject → Bool
  | network c => c.model.isWritable
  | counter _ domain => Smv.isWritable domain

theorem isSome_unlessEmpty {α β : Type} {xs : List α} {b : β} : (unlessEmpty xs b).isSome = true ↔ xs ≠ [] := by
  cases xs <;> simp [unlessEmpty]

namespace Pipeline

/-- The configurations that have an experiment: the counter with its property, and those that fit with any other
property, where outputs that are always true need two branches to be compared. -/
def Configuration.Applies (c : Configuration) : Prop :=
  (c.query = Query.dummy.name ∧ c.property = Property.xStaysNull.name) ∨
    (c.Fits ∧ ∃ p : Property, c.property = p.name ∧ p ≠ .xStaysNull ∧
      (p = .outputAlwaysTrue → isComparisonQuery c.query = true))

theorem Configuration.Fits.ne_dummy {c : Configuration} (h : c.Fits) : c.query ≠ Query.dummy.name := by
  obtain ⟨q, hq, hname, -⟩ := h
  intro hdummy
  have hsame : Query.dummy = q := by
    have hfound := Query.ofName?_name q
    rw [← hname, hdummy, Query.ofName?_name] at hfound
    exact Option.some.inj hfound
  subst hsame
  exact absurd hq (by decide)

section
variable {c : Configuration} {P Q : Plan} {w : Workspace} {compiled : CompiledGraph} {p : Property}

/-! ### What a graph puts out -/

theorem IsModel.outputs_ne_nil (h : IsModel c P Q w compiled) : compiled.outputs ≠ [] := by
  rw [h.outputs_eq]
  rcases c.wiring? with _ | _ | _ <;> exact List.cons_ne_nil _ _

theorem mem_outputTypes_boolean_iff (wiring? : Option Wiring) :
    PortType.boolean ∈ outputTypes wiring? ↔ wiring? = some .sequence := by
  rcases wiring? with _ | _ | _ <;> decide

theorem IsModel.booleanOutputs_ne_nil_iff (h : IsModel c P Q w compiled) :
    compiled.booleanOutputs ≠ [] ↔ c.wiring? = some .sequence := by
  have htypes := Catalog.outputTypes_built w (Catalog.domain_toNat_pos c) (Catalog.queue_toNat_pos c) P Q c.wiring?
  rw [← mem_outputTypes_boolean_iff, ← htypes, List.mem_map, ne_eq, List.eq_nil_iff_forall_not_mem]
  push Not
  constructor
  · rintro ⟨n, hn⟩
    obtain ⟨e, he, -, htype⟩ := (Workspace.mem_booleanOutputs_compile h).1 hn
    exact ⟨e, he, htype⟩
  · rintro ⟨e, he, htype⟩
    exact ⟨e.pipe, (Workspace.mem_booleanOutputs_compile h).2 ⟨e, he, rfl, htype⟩⟩

theorem wiring?_eq_sequence_iff : c.wiring? = some .sequence ↔ c.property = Property.sequenceEquivalence.name ∨
    (c.property = Property.outputAlwaysTrue.name ∧ isComparisonQuery c.query = true) := by
  have hnames : Property.stepEquivalence.name ≠ Property.sequenceEquivalence.name ∧
      Property.stepEquivalence.name ≠ Property.outputAlwaysTrue.name := by decide
  rw [Configuration.wiring?, wiring?]
  split_ifs with hstep hsequence hquery htrue
  · rw [hstep]
    simp [hnames]
  · simp [hsequence]
  · simp [htrue, hquery]
  · simp [hsequence, htrue]
  · simp [hsequence, hquery]

theorem IsModel.isSome_overGraph?_iff (h : IsModel c P Q w compiled) (hproperty : c.property = p.name) :
    (p.overGraph? compiled).isSome = true ↔
      p ≠ .xStaysNull ∧ (p = .outputAlwaysTrue → isComparisonQuery c.query = true) := by
  have hbooleans := h.booleanOutputs_ne_nil_iff
  rw [wiring?_eq_sequence_iff, hproperty] at hbooleans
  cases p with
  | xStaysNull => simp [Property.overGraph?]
  | noFullQueues | stepEquivalence => simp [Property.overGraph?]
  | liveness | boundedLiveness => simp [Property.overGraph?, isSome_unlessEmpty, h.outputs_ne_nil]
  | outputAlwaysEven =>
    have hnone : compiled.booleanOutputs = [] := by
      by_contra hsome
      obtain hname | ⟨hname, -⟩ := hbooleans.1 hsome
      · exact absurd hname (by decide)
      · exact absurd hname (by decide)
    simp [Property.overGraph?, isSome_unlessEmpty, hnone, h.outputs_ne_nil]
  | outputAlwaysTrue =>
    have hquery : (Property.outputAlwaysTrue.name = Property.sequenceEquivalence.name) = False :=
      eq_false (by decide)
    simpa [Property.overGraph?, isSome_unlessEmpty, hquery] using hbooleans
  | sequenceEquivalence =>
    have hsome := hbooleans.2 (.inl rfl)
    simp [Property.overGraph?, isSome_unlessEmpty, hsome]

/-! ### What a graph is written with -/

theorem IsModel.isWritable (h : IsModel c P Q w compiled) {q : Query} (hP : q.blueprint c.domain.toNat c.shape = some P)
    (hQ : q.counterpart c.domain.toNat c.shape = some Q) (hc : c.IsWritable) : compiled.model.isWritable = true :=
  (Catalog.writable_built hP hQ hc).compile h

theorem IsModel.isWritable_formula (h : IsModel c P Q w compiled) (hc : c.IsWritable) {f : Formula}
    (hf : p.overGraph? compiled = some f) : f.isWritable = true := by
  cases f with
  | noFullQueues flags =>
    obtain rfl := Verification.flags_of_overGraph? hf
    refine List.all_eq_true.2 fun flags hflags => ?_
    obtain ⟨path, j, t, hdeclared, rfl⟩ := Workspace.mem_queueFlags.1 hflags
    have horderly : (Catalog.built w (Catalog.domain_toNat_pos c) (Catalog.queue_toNat_pos c) P Q c.wiring?).Orderly
        w.graphs.length [] := Catalog.orderly_built c.wiring?
    have hwired := horderly.wiredThroughout
    rw [Workspace.mem_declarations_model h,
      Workspace.mem_declarations_instances hwired (Workspace.compile_eq_ok h).2.1] at hdeclared
    obtain ⟨n, -, -, rfl⟩ := hdeclared
    have hqueue : Smv.isWritable c.queue = true := hc c.queue (List.mem_cons_of_mem _ List.mem_cons_self)
    have hpos := c.queue_pos
    exact isWritable_of_le hqueue (by change 0 ≤ c.queue - 1; omega) (Int.sub_le_self _ Int.one_nonneg)
  | _ => rfl

end

/-! ### One configuration -/

namespace Configuration
variable {c : Configuration} {m : Option Subject}

theorem isSome_named?_iff {s : Subject} : (Formula.named? c.property s).isSome = true ↔
    ∃ p : Property, c.property = p.name ∧ (p.formula? s).isSome = true := by
  rw [Formula.named?]
  constructor
  · intro hsome
    obtain ⟨f, hf⟩ := Option.isSome_iff_exists.1 hsome
    obtain ⟨p, hp, hf⟩ := Option.bind_eq_some_iff.1 hf
    exact ⟨p, (Property.name_of_ofName? hp).symm, Option.isSome_iff_exists.2 ⟨f, hf⟩⟩
  · rintro ⟨p, hp, hsome⟩
    have hname := named?_name p s
    rw [Formula.named?, ← hp] at hname
    rwa [hname]

theorem Yields.isSome_formula_iff (h : c.Yields m) :
    (m.bind (Formula.named? c.property)).isSome = true ↔ c.Applies := by
  cases h with
  | counter dummy =>
    have hfits : ¬ c.Fits := fun h => h.ne_dummy dummy
    have hformula (p : Property) : (p.formula? (.counter c.queue c.domain)).isSome = true ↔ p = .xStaysNull := by
      rw [Property.formula?]
      split_ifs with hp <;> simp [hp]
    simp [Applies, isSome_named?_iff, hformula, dummy, hfits]
  | nothing query infeasible =>
    rw [Catalog.feasible_iff_fits] at infeasible
    simp [Applies, query, infeasible]
  | @network w P Q compiled compiles =>
    obtain ⟨q, hquery, hP, hQ⟩ := compiles.plans
    have hfits : c.Fits := Catalog.feasible_iff_fits.1 ⟨w, _, _, Catalog.assemble_run hquery hP hQ⟩
    simp only [Applies, hfits, hfits.ne_dummy, false_and, true_and, false_or]
    rw [Option.bind_some, isSome_named?_iff]
    exact exists_congr fun p => and_congr_right fun hp => compiles.model.isSome_overGraph?_iff hp

theorem Yields.isWritable (h : c.Yields m) (hc : c.IsWritable) : ∀ s ∈ m, s.isWritable = true ∧
    ∀ f ∈ Formula.named? c.property s, f.isWritable = true := by
  intro s hs
  cases h with
  | counter dummy =>
    obtain rfl := Option.some.inj hs
    refine ⟨hc c.domain List.mem_cons_self, fun f hf => ?_⟩
    obtain ⟨p, -, hf⟩ := Option.bind_eq_some_iff.1 hf
    obtain ⟨-, hf⟩ := Option.ite_none_right_eq_some.1 hf
    obtain rfl := Option.some.inj hf
    rfl
  | nothing query infeasible => nomatch hs
  | network compiles =>
    obtain rfl := Option.some.inj hs
    obtain ⟨q, -, hP, hQ⟩ := compiles.plans
    refine ⟨compiles.model.isWritable hP hQ hc, fun f hf => ?_⟩
    obtain ⟨p, -, hf⟩ := Option.bind_eq_some_iff.1 hf
    exact compiles.model.isWritable_formula hc hf

theorem Yields.readable (h : c.Yields m) : ∀ n, m = some (.network n) → n.inputPortIds? = some n.inputs ∧
    n.outputPortIds? = some n.outputs ∧ n.booleanOutputIds? = some n.booleanOutputs := by
  rintro n rfl
  cases h with
  | @network w P Q compiled compiles =>
    have horderly : (Catalog.built w (Catalog.domain_toNat_pos c) (Catalog.queue_toNat_pos c) P Q c.wiring?).Orderly
        w.graphs.length [] := Catalog.orderly_built c.wiring?
    have hwired := horderly.wiredThroughout
    obtain ⟨-, hmain, -⟩ := Workspace.declared_compile hwired
      (Catalog.nodup_pipes_built w _ _ P Q c.wiring?) compiles.model
    exact CompiledGraph.portIds_eq hmain

end Configuration
end Pipeline

/-! ### Every configuration -/

namespace Verification.Factory
open Configuration

theorem exists_traced_gets (factory : Factory) {archive : Archive} (hk : Kept archive factory.library.cache)
    (ht : Traced archive factory.library.cache) (cs : List Configuration) : ∃ experiments final,
      (cs.mapM factory.get).run archive = .ok experiments final ∧ Kept final factory.library.cache ∧
        Traced final factory.library.cache := by
  have hstep : ∀ config ∈ cs, ∀ archive, Kept archive factory.library.cache ∧ Traced archive factory.library.cache →
      ∃ e archive', (factory.get config).run archive = .ok e archive' ∧
        (Kept archive' factory.library.cache ∧ Traced archive' factory.library.cache) ∧ True := by
    rintro config - archive ⟨hk, ht⟩
    obtain ⟨m, archive', hgot, hrun⟩ := Library.exists_got ht config
    exact ⟨_, archive', get_run factory hrun, ⟨hgot.kept hk, hgot.traced hk ht⟩, trivial⟩
  obtain ⟨experiments, final, hgets, ⟨hkept, htraced⟩, -⟩ := exists_mapM_run_of_step hstep ⟨hk, ht⟩
  exact ⟨experiments, final, hgets, hkept, htraced⟩

/-- Whatever a factory and its cache were asked for before, it has an experiment for exactly the configurations that
apply, and has it or none without a fault: the pipes of the model are found in its names, and if the numbers of the
configuration can be written, so can those of the model and of the formula. -/
theorem experiments_for_applicable (archive : Archive) (history earlier : List Configuration) (config : Configuration)
    (checker : Checker) (keepModels : Bool) : ∃ c started answers asked library opened before used m e final,
      Keep.newCache.run archive = .ok c started ∧
      (history.mapM (Keep.getOrBuild c)).run started = .ok answers asked ∧
      (Library.ofCache c).run asked = .ok library opened ∧
      (earlier.mapM (get ⟨library, checker, keepModels⟩)).run opened = .ok before used ∧
      (library.get config).run used = .ok m final ∧
      (get ⟨library, checker, keepModels⟩ config).run used = .ok e final ∧
      (e.isSome = true ↔ config.Applies) ∧
      (∀ n, m = some (.network n) → n.inputPortIds? = some n.inputs ∧ n.outputPortIds? = some n.outputs ∧
        n.booleanOutputIds? = some n.booleanOutputs) ∧
      (config.IsWritable → (∀ s ∈ m, s.isWritable = true) ∧ ∀ x ∈ e, x.formula.isWritable = true) := by
  obtain ⟨c, started, answers, asked, library, opened, hnew, hanswers, hlibrary, hkept, htraced⟩ :=
    exists_traced_library archive history
  let factory : Factory := ⟨library, checker, keepModels⟩
  obtain ⟨before, used, hearlier, hkept, htraced⟩ := exists_traced_gets factory hkept htraced earlier
  obtain ⟨m, final, hgot, hlibraryGet⟩ := Library.exists_got htraced config
  have hyields := hgot.yields htraced
  have hget := get_run factory hlibraryGet
  refine ⟨c, started, answers, asked, library, opened, before, used, m, _, final, hnew, hanswers, hlibrary, hearlier,
    hlibraryGet, hget, ?_, hyields.readable, fun hwritable => ⟨fun s hs => (hyields.isWritable hwritable s hs).1, ?_⟩⟩
  · rw [← hyields.isSome_formula_iff]
    cases m <;> simp
  · intro x hx
    obtain ⟨s, hs, hx⟩ := Option.bind_eq_some_iff.1 hx
    obtain ⟨f, hf, rfl⟩ := Option.map_eq_some_iff.1 hx
    exact (hyields.isWritable hwritable s hs).2 f hf

end Verification.Factory
end StreamCheck
