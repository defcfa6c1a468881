import StreamCheck.Proofs.Network.Discovery
import StreamCheck.Proofs.Pipeline.Guards
import StreamCheck.Proofs.Pipeline.Provenance

/-! Reports: a pipeline is kept for the shape that its configuration asks for, but reports the one that it was built
with. So every class of keys has a graph of its own, while several classes may be reported as one. -/

namespace StreamCheck
open Network

def Subject.graph? : Subject → Option GraphId
  | network c => some c.graph
  | counter .. => none

theorem CompiledGraph.graph_of_compile {w : Workspace} {name : String} {s : Sizes} {g : GraphId} {shape : Option Int}
    {compiled : CompiledGraph} (h : compile w name s g shape = .ok compiled) : compiled.graph = g := by
  obtain ⟨c, hc, hgraph, -⟩ := exists_compile (compile_eq_ok h) name shape
  obtain rfl := Except.ok.inj (hc.symm.trans h)
  exact hgraph

end StreamCheck

namespace StreamCheck.Pipeline
open Network Creator

/-! ### Shapes -/

namespace Query
variable {q : Query} {domain : Nat} {shape : Option Int} {P Q : Plan}

/-- The shape that is reported when a shape is asked for: the effective one, or none where the query has no shape. -/
def reported (q : Query) (shape : Option Int) : Option Int :=
  match q with
  | productOfFirst | productWindow | sumOfOnes | outputIfSmaller => some (effective shape defaultShape)
  | comparePassthroughDelay => some (effective shape defaultDelay)
  | _ => none

theorem Draft.shape_eq (h : q.Draft domain shape P) (hq : q.isComparison = false) : P.shape = q.reported shape := by
  cases h with
  | windowSum2 | trimSum2 | windowSum3 | trimSum3 | undelayed | delayed => nomatch hq
  | _ => rfl

theorem shapeOf_eq_reported (hP : q.blueprint domain shape = some P) (hQ : q.counterpart domain shape = some Q)
    {wiring? : Option Wiring} (hwiring : q.isComparison = true → wiring?.isSome = true) :
    Catalog.shapeOf P Q wiring? = q.reported shape := by
  cases hq : q.isComparison with
  | false =>
    rw [counterpart_eq_blueprint hq] at hQ
    obtain rfl := Option.some.inj (hP.symm.trans hQ)
    have hshape := (draft_of_blueprint hP).shape_eq hq
    cases wiring? with
    | none => exact hshape
    | some wiring =>
      rw [← hshape]
      cases hsame : P.shape <;> simp [Catalog.shapeOf, hsame]
  | true =>
    obtain ⟨wiring, rfl⟩ := Option.isSome_iff_exists.1 (hwiring hq)
    cases q with
    | compareWindowSum2 | compareWindowSum3 | comparePassthroughDelay =>
      obtain rfl := Option.some.inj hP
      obtain rfl := Option.some.inj hQ
      rfl
    | _ => cases hq

end Query

/-! ### Keys -/

theorem isSome_wiring? {query property : String} (h : isComparisonQuery query = true) :
    (wiring? query property).isSome = true := by
  rw [wiring?]
  split_ifs <;> rfl

namespace Key

def reported (k : Key) : Key := { k with shape := (Query.ofName? k.query).bind (·.reported k.shape) }

theorem reported_congr {k k' : Key} (h : k ≈ k') : k.reported ≈ k'.reported := by
  obtain ⟨⟨hquery, hqueue, hdomain, hshape⟩, hproperty⟩ := matches?_iff.1 h
  exact matches?_iff.2 ⟨⟨hquery, hqueue, hdomain, by rw [reported, reported, hquery, hshape]⟩, hproperty⟩

def Class.reported : Class → Class := Quotient.map Key.reported fun _ _ => reported_congr

end Key

namespace Configuration
variable {c c' : Configuration}

/-- Configurations that are reported as one have one pipeline exactly if they ask for one shape. -/
theorem keyClass_eq_iff (h : c.keyClass.reported = c'.keyClass.reported) :
    c.keyClass = c'.keyClass ↔ c.shape = c'.shape := by
  obtain ⟨⟨hquery, hqueue, hdomain, -⟩, hproperty⟩ := Key.matches?_iff.1 (Quotient.exact h)
  constructor
  · intro hclass
    exact (Key.matches?_iff.1 (matches?_of_keyClass_eq hclass)).1.2.2.2
  · intro hshape
    exact Quotient.sound (Key.matches?_iff.2 ⟨⟨hquery, hqueue, hdomain, hshape⟩, hproperty⟩)

def productOfFirst (k : Option Int) : Configuration where
  query := Query.productOfFirst.name
  domain := 2
  queue := 1
  k := k
  domain_pos := Creator.pos_two
  queue_pos := Int.one_pos

/-- The interval that is taken where none is asked for is reported like the same one that is. -/
theorem not_injective_reported : ¬ Function.Injective Key.Class.reported := by
  intro hinjective
  have hsame : (productOfFirst none).keyClass = (productOfFirst (some 3)).keyClass := hinjective (by decide)
  exact absurd hsame (by decide)

variable {w : Workspace} {P Q : Plan} {compiled : CompiledGraph}

theorem Compiles.shape_eq (h : c.Compiles w P Q compiled) :
    compiled.shape = (Key.ofConfiguration c).reported.shape := by
  obtain ⟨q, hquery, hP, hQ⟩ := h.plans
  have hwiring : q.isComparison = true → c.wiring?.isSome = true := by
    intro hq
    refine isSome_wiring? ?_
    rw [isComparisonQuery, hquery]
    exact hq
  calc compiled.shape
    _ = Catalog.shapeOf P Q c.wiring? := h.shape
    _ = q.reported c.shape := Query.shapeOf_eq_reported hP hQ hwiring
    _ = (Query.ofName? c.query).bind (·.reported c.shape) := by rw [hquery, Option.bind_some]

end Configuration

/-! ### Graphs -/

theorem Catalog.graph_of_run {c : Configuration} {w w' : Workspace} {a : Assembly}
    (hrun : (assemble c).run w = .ok (some a) w') : a.graph = w.graphs.length ∧ a.graph < w'.graphs.length := by
  obtain ⟨q, P, Q, hquery, hP, hQ⟩ := Feasible.exists_plans ⟨w, a, w', hrun⟩
  obtain ⟨ha, rfl⟩ := EStateM.Result.ok.inj ((assemble_run hquery hP hQ).symm.trans hrun)
  obtain rfl := Option.some.inj ha
  obtain ⟨hbehaves, hbehaves'⟩ := plans_behave hP hQ
  exact ⟨rfl, within_built_lt hbehaves hbehaves' c.wiring? .top⟩

variable {archive archive' : Archive} {c : CacheId} {config config' : Configuration} {answer : Option Assembly}
  {g g' : GraphId}

/-- A cache whose graphs all stand, and in which no graph is kept for two classes. -/
structure Apart (archive : Archive) (c : CacheId) : Prop where
  lt : ∀ b ∈ (archive.cache c).builds, ∀ a ∈ b.2, a.graph < archive.workspace.graphs.length
  class_eq : ∀ b ∈ (archive.cache c).builds, ∀ b' ∈ (archive.cache c).builds, ∀ a ∈ b.2, ∀ a' ∈ b'.2,
    a.graph = a'.graph → (⟦b.1⟧ : Key.Class) = ⟦b'.1⟧

theorem apart_addCache (archive : Archive) : Apart archive.addCache archive.caches.length := by
  refine ⟨fun b hb => ?_, fun b hb => ?_⟩ <;>
  · rw [archive.cache_addCache] at hb
    nomatch hb

theorem Answered.apart (h : Answered archive c config answer archive') (hk : Kept archive c) (ha : Apart archive c) :
    Apart archive' c := by
  obtain ⟨assembled, hmet⟩ := h.met
  have hlength := hmet.keepsFrozen.length_le
  cases h with
  | kept find => exact ha
  | @assembled w find run =>
    have hnew : ∀ a ∈ answer, a.graph = archive.workspace.graphs.length ∧
        a.graph < (frozenIn w answer).graphs.length := by
      rintro a rfl
      obtain ⟨hgraph, hlt⟩ := Catalog.graph_of_run run
      exact ⟨hgraph, (Workspace.SameButFrozen.freeze w a.graph).length_eq.symm ▸ hlt⟩
    have hold : ∀ b ∈ (archive.cache c).builds, ∀ a ∈ b.2, ∀ a' ∈ answer, a.graph ≠ a'.graph := by
      intro b hb a hab a' ha' hgraph
      exact Nat.ne_of_lt (ha.lt b hb a hab) (hgraph.trans (hnew a' ha').1)
    constructor
    · rw [Archive.cache_modify hk.lt, Cache.insert, List.forall_mem_append, List.forall_mem_singleton]
      exact ⟨fun b hb a hab => Nat.lt_of_lt_of_le (ha.lt b hb a hab) hlength, fun a ha => (hnew a ha).2⟩
    · rw [Archive.cache_modify hk.lt]
      simp only [Cache.insert, List.forall_mem_append, List.forall_mem_singleton]
      exact ⟨fun b hb => ⟨ha.class_eq b hb, fun a hab a' ha' hgraph => absurd hgraph (hold b hb a hab a' ha')⟩,
        fun b hb a ha' a' hab hgraph => absurd hgraph.symm (hold b hb a' hab a ha'), fun _ _ _ _ _ => trivial⟩

/-- A cache that keeps one answer for each class, every one of them from the catalog and with a graph of its own. -/
structure Accountable (archive : Archive) (c : CacheId) : Prop where
  kept : Kept archive c
  traced : Traced archive c
  apart : Apart archive c

theorem accountable_addCache (archive : Archive) : Accountable archive.addCache archive.caches.length :=
  ⟨kept_addCache archive, traced_addCache archive, apart_addCache archive⟩

theorem Answered.accountable (h : Answered archive c config answer archive') (ha : Accountable archive c) :
    Accountable archive' c :=
  ⟨h.kept_of_kept ha.kept, h.traced ha.kept ha.traced, h.apart ha.kept ha.apart⟩

def Holds (archive : Archive) (c : CacheId) (config : Configuration) (g : GraphId) : Prop :=
  ∃ a, (archive.cache c).find? (Key.ofConfiguration config) = some (some a) ∧ a.graph = g

theorem Holds.mono (h : Holds archive c config g) (hold : HoldsOn c archive archive') : Holds archive' c config g := by
  obtain ⟨a, hfind, hgraph⟩ := h
  exact ⟨a, hold _ _ hfind, hgraph⟩

theorem Apart.graph_eq_iff (ha : Apart archive c) (h : Holds archive c config g) (h' : Holds archive c config' g') :
    g = g' ↔ config.keyClass = config'.keyClass := by
  obtain ⟨a, hfind, rfl⟩ := h
  obtain ⟨a', hfind', rfl⟩ := h'
  constructor
  · intro hgraph
    obtain ⟨b, hb, hclass, hab⟩ := Cache.exists_of_find? hfind
    obtain ⟨b', hb', hclass', hab'⟩ := Cache.exists_of_find? hfind'
    exact (hclass.symm.trans (ha.class_eq b hb b' hb' a hab a' hab' hgraph)).trans hclass'
  · intro hclass
    rw [Cache.find?_congr hclass, hfind'] at hfind
    exact congrArg Assembly.graph (Option.some.inj (Option.some.inj hfind)).symm

namespace Library.Got
variable {l : Library} {m : Option Subject}

theorem accountable (h : l.Got archive config m archive') (ha : Accountable archive l.cache) :
    Accountable archive' l.cache := by
  cases h with
  | counter dummy => exact ha
  | nothing query answered => exact answered.accountable ha
  | network query answered compiles => exact answered.accountable ha

theorem holdsOn (h : l.Got archive config m archive') (hk : Kept archive l.cache) :
    HoldsOn l.cache archive archive' := by
  cases h with
  | counter dummy => exact .refl _ _
  | nothing query answered | network query answered compiles =>
    obtain ⟨assembled, hmet⟩ := answered.met
    exact fun _ _ => hmet.find?_mono hk

theorem holds (h : l.Got archive config m archive') (hk : Kept archive l.cache) : ∀ s ∈ m, ∀ g ∈ s.graph?,
    Holds archive' l.cache config g := by
  intro s hs g hg
  cases h with
  | counter dummy =>
    obtain rfl := Option.some.inj hs
    nomatch hg
  | nothing query answered => nomatch hs
  | @network _ a compiled query answered compiles =>
    obtain rfl := Option.some.inj hs
    obtain rfl := Option.some.inj hg
    exact ⟨a, answered.find?_self hk, (CompiledGraph.graph_of_compile compiles).symm⟩

end Library.Got
end StreamCheck.Pipeline
