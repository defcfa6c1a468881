import StreamCheck.Proofs.Network.Offers
import StreamCheck.Proofs.Pipeline.Libraries
import StreamCheck.Verification.Factory

/-! Fitting: the formula of an experiment speaks of what is declared in the model above it, as it is declared. -/

namespace StreamCheck
open Smv Network Pipeline

theorem Property.name_of_ofName? {name : String} {p : Property} (h : ofName? name = some p) : p.name = name := by
  have hfound := List.find?_some (p := fun p : Property => p.name == name) h
  exact eq_of_beq hfound

theorem Property.property_of_formula? {p : Property} {s : Subject} {f : Formula} (h : p.formula? s = some f) :
    f.property = p := by
  cases s with
  | counter queue domain =>
    obtain ⟨rfl, hf⟩ := Option.ite_none_right_eq_some.1 h
    obtain rfl := Option.some.inj hf
    rfl
  | network c =>
    cases p with
    | xStaysNull => nomatch h
    | noFullQueues | stepEquivalence =>
      obtain rfl := Option.some.inj h
      rfl
    | _ =>
      obtain rfl := eq_of_unlessEmpty h
      rfl

/-! ### What a subject declares -/

def counterModule (domain : Int) : Module := ⟨.main, [], [⟨.other "x", .scalar (.upTo domain)⟩], [], []⟩

def Subject.model : Subject → Model
  | .network c => c.model
  | .counter _ domain => ⟨counterModule domain, []⟩

theorem counterText_eq (domain : Int) :
    Subject.counterText domain = (counterModule domain).text ++ "INIT\n  x = 0;\nTRANS\n  next(x) = x + 1;\n" := by
  have hmodule : (counterModule domain).text =
      "MODULE main\n" ++ ("VAR\n" ++ ("  " ++ ("x" ++ (" : " ++ ("0.." ++ (toString domain ++ ";\n")))))) := by
    simp [Module.text, counterModule, Module.header, Module.block, VarType.text, Scalar.text, Name.text,
      ModuleName.text, String.append_assoc]
  have hhead : "MODULE main\nVAR\n  x : 0.." = "MODULE main\n" ++ ("VAR\n" ++ ("  " ++ ("x" ++ (" : " ++ "0..")))) := by
    simp
  have htail : ";\nINIT\n  x = 0;\nTRANS\n  next(x) = x + 1;\n" =
      ";\n" ++ "INIT\n  x = 0;\nTRANS\n  next(x) = x + 1;\n" := by
    simp
  calc Subject.counterText domain
    _ = "MODULE main\nVAR\n  x : 0.." ++ toString domain ++ ";\nINIT\n  x = 0;\nTRANS\n  next(x) = x + 1;\n" := rfl
    _ = (counterModule domain).text ++ "INIT\n  x = 0;\nTRANS\n  next(x) = x + 1;\n" := by
      rw [hmodule, hhead, htail]
      simp only [String.append_assoc]

theorem Subject.shows_text (s : Subject) : ∀ x ∈ s.model.main :: s.model.modules,
    ∃ before after, s.text = before ++ x.text ++ after := by
  intro x hx
  cases s with
  | network c => exact exists_intercalate_eq (List.mem_map_of_mem hx)
  | counter queue domain =>
    obtain rfl := List.mem_singleton.1 hx
    exact ⟨"", _, by rw [String.empty_append]; exact counterText_eq domain⟩

/-! ### One experiment -/

namespace Verification

/-- A formula that fits the model that it stands below. -/
structure Experiment.Fits (e : Experiment) : Prop where
  shown : ∀ x ∈ e.subject.model.main :: e.subject.model.modules,
    ∃ before after, e.subject.text = before ++ x.text ++ after
  /-- Nothing is declared under the name of something else. -/
  distinct : (e.subject.model.declarations.map fun x => x.1.text).Nodup
  declared : ∀ f ∈ e.formula.statement?, ∀ p ∈ f.reads, ∃ type, e.subject.model.Offers p type
  typed : ∀ f ∈ e.formula.statement?, f.Typed e.subject.model.Offers
  queues : e.formula.property = .noFullQueues → ∀ path j t, (⟨path, .queueFlags j⟩, t) ∈ e.subject.model.declarations →
    ∃ f ∈ e.formula.statement?, ⟨⟨path, .queueFlags j⟩, some (t.size - 1)⟩ ∈ f.reads

variable {f : Formula} {p : Property} {config : Configuration} {keepModel : Bool}

theorem fits_counter {queue domain : Int} (hf : p.formula? (.counter queue domain) = some f) :
    Experiment.Fits ⟨.counter queue domain, f, keepModel⟩ := by
  obtain ⟨-, hf⟩ := Option.ite_none_right_eq_some.1 hf
  obtain rfl := Option.some.inj hf
  have htyped : ∀ t ∈ Formula.xStaysNull.statement?, t.Typed (Subject.counter queue domain).model.Offers :=
    Formula.Suits.typed (f := .xStaysNull) (.counter List.mem_cons_self)
  exact {
    shown := Subject.shows_text _
    distinct := List.nodup_singleton _
    declared := fun t ht => (htyped t ht).exists_offer
    typed := htyped
    queues := fun h => nomatch h }

theorem flags_of_overGraph? {c : CompiledGraph} {flags : List QueueFlags}
    (h : p.overGraph? c = some (.noFullQueues flags)) : flags = c.queueFlags := by
  cases p with
  | xStaysNull => nomatch h
  | noFullQueues => exact (Formula.noFullQueues.inj (Option.some.inj h)).symm
  | stepEquivalence => nomatch Option.some.inj h
  | _ => nomatch eq_of_unlessEmpty h

theorem fits_network {w : Workspace} {s : Sizes} {g : GraphId} {types : List PortType} {c : CompiledGraph}
    (hserves : w.Serves s types g) (hc : w.compile s g = .ok c.model) (hq : 0 < s.queue)
    (hsame : p = .stepEquivalence → ∃ type, ∀ t ∈ types, t = type) (hf : p.overGraph? c = some f) :
    Experiment.Fits ⟨.network c, f, keepModel⟩ := by
  obtain ⟨hnodup, -, hordinary⟩ := Workspace.declared_compile hserves.wired hserves.pipes hc
  have houtputs (hp : p = .stepEquivalence) :
      ∃ type, ∀ e ∈ (w.graph g).outputs, w.typeOf .output e.port = type := by
    obtain ⟨type, htype⟩ := hsame hp
    exact ⟨type, fun e he => htype _ (hserves.outputs ▸ List.mem_map_of_mem he)⟩
  have htyped : ∀ t ∈ f.statement?, t.Typed c.model.Offers :=
    (Workspace.suits_overGraph? hc hserves.wired hq hf houtputs).typed
  refine ⟨Subject.shows_text _, ?_, fun t ht => (htyped t ht).exists_offer, htyped, fun hp path j t hdeclared => ?_⟩
  · have htexts : ((c.model.declarations.map Prod.fst).map Ref.text).Nodup := by
      refine hnodup.map_on fun r hr r' hr' => ?_
      obtain ⟨x, hx, rfl⟩ := List.mem_map.1 hr
      obtain ⟨y, hy, rfl⟩ := List.mem_map.1 hr'
      exact Ref.text_injective (hordinary x hx) (hordinary y hy)
    rwa [List.map_map] at htexts
  · cases f with
    | noFullQueues flags =>
      obtain rfl := flags_of_overGraph? hf
      exact Formula.exists_reads_noFullQueues (Workspace.mem_queueFlags.2 ⟨path, j, t, hdeclared, rfl⟩)
    | _ => nomatch hp

/-- A comparison step by step is made of outputs of one type. -/
theorem types_of_stepEquivalence (h : Property.ofName? config.property = some .stepEquivalence) :
    ∀ t ∈ outputTypes config.wiring?, t = .integer := by
  have hwiring : config.wiring? = some .stepwise := if_pos (Property.name_of_ofName? h).symm
  rw [hwiring]
  decide

/-! ### All experiments of a factory -/

namespace Factory
variable {archive : Archive}

section
variable (factory : Factory)

theorem get_run {config : Configuration} {s : Option Subject} {archive' : Archive}
    (h : (factory.library.get config).run archive = .ok s archive') :
    (factory.get config).run archive = .ok (s.bind fun s =>
      (Formula.named? config.property s).map fun f => ⟨s, f, factory.keepModels⟩) archive' := by
  rw [get]
  refine (run_bind_ok h).trans ?_
  cases s <;> rfl

theorem exists_property {name : String} {s : Subject} (h : Formula.named? name s = some f) :
    ∃ p, Property.ofName? name = some p ∧ p.formula? s = some f :=
  Option.bind_eq_some_iff.1 h

theorem property_of_named? {s : Subject} (h : Formula.named? config.property s = some f) :
    f.property.name = config.property := by
  obtain ⟨p, hp, hf⟩ := exists_property h
  rw [Property.property_of_formula? hf, Property.name_of_ofName? hp]

theorem exists_get (hk : Kept archive factory.library.cache) (config : Configuration) : ∃ e archive',
    (factory.get config).run archive = .ok e archive' ∧ Kept archive' factory.library.cache ∧
      ∀ x ∈ e, x.formula.property.name = config.property ∧ x.Fits := by
  by_cases hquery : config.query = Query.dummy.name
  · have hget : (factory.library.get config).run archive = .ok (some (.counter config.queue config.domain)) archive := by
      rw [Library.get, if_pos hquery]
      rfl
    refine ⟨_, archive, get_run factory hget, hk, fun x hx => ?_⟩
    obtain ⟨f, hf, rfl⟩ := Option.map_eq_some_iff.1 hx
    obtain ⟨p, -, hformula⟩ := exists_property hf
    exact ⟨property_of_named? hf, fits_counter hformula⟩
  · obtain ⟨r, archive', hmet, -, hrun⟩ := exists_met archive factory.library.cache config
    have hkept : Kept archive' factory.library.cache := hmet.kept hk
    have hfind := hmet.find?_self hk
    cases hanswer : r.answer with
    | none =>
      rw [hanswer] at hrun
      exact ⟨none, archive', get_run factory (get_run_of_none hquery hrun), hkept,
        fun x hx => absurd hx (Option.not_mem_none x)⟩
    | some a =>
      rw [hanswer] at hrun hfind
      have hserves := hkept.serves_of_find? hfind
      obtain ⟨m, hm⟩ := hserves.compiles
      obtain ⟨compiled, hcompiled, -, rfl⟩ := CompiledGraph.exists_compile hm config.query a.shape
      refine ⟨_, archive', get_run factory (get_run_of_some hquery hrun hcompiled), hkept, fun x hx => ?_⟩
      obtain ⟨f, hf, rfl⟩ := Option.map_eq_some_iff.1 hx
      obtain ⟨p, hp, hformula⟩ := exists_property hf
      refine ⟨property_of_named? hf, fits_network hserves hm config.queue_pos ?_ hformula⟩
      rintro rfl
      exact ⟨.integer, types_of_stepEquivalence hp⟩

theorem exists_kept_gets (hk : Kept archive factory.library.cache) (cs : List Configuration) : ∃ experiments archive',
    (cs.mapM factory.get).run archive = .ok experiments archive' ∧ Kept archive' factory.library.cache ∧
      List.Forall₂ (fun config x => ∀ e ∈ x, e.formula.property.name = config.property ∧ e.Fits) cs experiments :=
  exists_mapM_run_of_step (fun config _ _ hk => exists_get factory hk config) hk

end

end Factory
end Verification
end StreamCheck
