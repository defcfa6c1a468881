import Mathlib.Data.Finset.Card
import Mathlib.Data.List.Nodup
import StreamCheck.Pipeline.Request
import StreamCheck.Proofs.Pipeline.Keys
import StreamCheck.Proofs.Pipeline.Serving

/-! Requests at a cache: the first of a class of keys has the catalog assemble a graph, and every later one
of the class is answered with what came of that. -/

namespace StreamCheck.Pipeline
open Network

/-! ### Classes of keys -/

namespace Key

theorem matches?_refl (k : Key) : k.matches? k = true :=
  matches?_iff.2 ⟨⟨rfl, rfl, rfl, rfl⟩, fun _ => rfl⟩

theorem matches?_symm {k k' : Key} (h : k.matches? k' = true) : k'.matches? k = true := by
  obtain ⟨⟨hquery, hqueue, hdomain, hshape⟩, hproperty⟩ := matches?_iff.1 h
  exact matches?_iff.2 ⟨⟨hquery.symm, hqueue.symm, hdomain.symm, hshape.symm⟩, fun hstyle => (hproperty hstyle.symm).symm⟩

theorem comparisonStyle_congr {k k' : Key} (hquery : k.query = k'.query) (hproperty : k.property = k'.property) :
    k.comparisonStyle = k'.comparisonStyle := by
  rw [comparisonStyle, comparisonStyle, hquery, hproperty]

theorem matches?_trans {k k' k'' : Key} (h : k.matches? k' = true) (h' : k'.matches? k'' = true) :
    k.matches? k'' = true := by
  obtain ⟨⟨hquery, hqueue, hdomain, hshape⟩, hproperty⟩ := matches?_iff.1 h
  obtain ⟨⟨hquery', hqueue', hdomain', hshape'⟩, hproperty'⟩ := matches?_iff.1 h'
  refine matches?_iff.2 ⟨⟨hquery.trans hquery', hqueue.trans hqueue', hdomain.trans hdomain', hshape.trans hshape'⟩, ?_⟩
  -- a key that compares shares its property with the one in between, which then compares as well
  rintro (hstyle | hstyle)
  · have hfirst := hproperty (.inl hstyle)
    exact hfirst.trans (hproperty' (.inl (comparisonStyle_congr hquery hfirst ▸ hstyle)))
  · have hsecond := hproperty' (.inr hstyle)
    exact (hproperty (.inr (comparisonStyle_congr hquery' hsecond ▸ hstyle))).trans hsecond

instance setoid : Setoid Key where
  r k k' := k.matches? k' = true
  iseqv := ⟨matches?_refl, matches?_symm, matches?_trans⟩

instance decidableEquiv (k k' : Key) : Decidable (k ≈ k') := inferInstanceAs (Decidable (k.matches? k' = true))

/-- All keys that stand for one pipeline. -/
abbrev Class := Quotient setoid

theorem comparisonStyle_eq_of_matches {k k' : Key} (h : k.matches? k' = true) : k.comparisonStyle = k'.comparisonStyle := by
  obtain ⟨⟨hquery, -⟩, hproperty⟩ := matches?_iff.1 h
  -- a key of either kind that compares brings its property along, so that the other one compares too
  by_cases hstyle : k.comparisonStyle = true ∨ k'.comparisonStyle = true
  · exact comparisonStyle_congr hquery (hproperty hstyle)
  · obtain ⟨hk, hk'⟩ := not_or.1 hstyle
    rw [Bool.eq_false_iff.2 hk, Bool.eq_false_iff.2 hk']

/-- Matching sorts the keys into classes: those with one query, one pair of sizes and one shape that do not
compare, and those that do, with one property in addition. -/
theorem matches?_equivalence : Equivalence (fun k k' : Key => k.matches? k' = true) ∧
    ∀ k k' : Key, k.matches? k' = true ↔
      k.query = k'.query ∧ k.queue = k'.queue ∧ k.domain = k'.domain ∧ k.shape = k'.shape ∧
        k.comparisonStyle = k'.comparisonStyle ∧ (k.comparisonStyle = true → k.property = k'.property) := by
  refine ⟨⟨matches?_refl, matches?_symm, matches?_trans⟩, fun k k' => ⟨fun h => ?_, fun h => ?_⟩⟩
  · obtain ⟨⟨hquery, hqueue, hdomain, hshape⟩, hproperty⟩ := matches?_iff.1 h
    exact ⟨hquery, hqueue, hdomain, hshape, comparisonStyle_eq_of_matches h, fun hstyle => hproperty (.inl hstyle)⟩
  · obtain ⟨hquery, hqueue, hdomain, hshape, hstyle, hproperty⟩ := h
    refine matches?_iff.2 ⟨⟨hquery, hqueue, hdomain, hshape⟩, ?_⟩
    rw [← hstyle, or_self]
    exact hproperty

end Key

def Configuration.keyClass (c : Configuration) : Key.Class := ⟦Key.ofConfiguration c⟧

theorem Configuration.matches?_of_keyClass_eq {a b : Configuration} (h : a.keyClass = b.keyClass) :
    (Key.ofConfiguration a).matches? (Key.ofConfiguration b) = true :=
  Quotient.exact h

theorem Catalog.feasible_congr {a b : Configuration} (h : a.keyClass = b.keyClass) : Feasible a ↔ Feasible b := by
  rw [Feasible, Feasible, Key.assemble_eq_of_matches (Configuration.matches?_of_keyClass_eq h)]

/-! ### What a cache holds -/

namespace Cache
variable {c : Cache} {k k' : Key} {config : Configuration} {answer : Option Assembly}

def classes (c : Cache) : List Key.Class := c.builds.map fun b => ⟦b.1⟧

theorem classes_insert (c : Cache) (k : Key) (answer : Option Assembly) :
    (c.insert k answer).classes = c.classes ++ [⟦k⟧] := by
  simp [classes, insert]

theorem find?_congr (h : (⟦k⟧ : Key.Class) = ⟦k'⟧) : c.find? k = c.find? k' := by
  have hmatches : ∀ b : Key × Option Assembly, b.1.matches? k = b.1.matches? k' := fun b => by
    rw [Bool.eq_iff_iff]
    exact ⟨fun hb => Key.matches?_trans hb (Quotient.exact h),
      fun hb => Key.matches?_trans hb (Key.matches?_symm (Quotient.exact h))⟩
  simp only [find?, hmatches]

theorem exists_of_find? (h : c.find? k = some answer) : ∃ b ∈ c.builds, (⟦b.1⟧ : Key.Class) = ⟦k⟧ ∧ b.2 = answer := by
  obtain ⟨b, hb, rfl⟩ := Option.map_eq_some_iff.1 h
  have hmatches : b.1.matches? k = true :=
    List.find?_some (p := fun b : Key × Option Assembly => b.1.matches? k) hb
  exact ⟨b, List.mem_of_find?_eq_some hb, Quotient.sound hmatches, rfl⟩

theorem find?_eq_none_iff : c.find? k = none ↔ ⟦k⟧ ∉ c.classes := by
  rw [find?, Option.map_eq_none_iff, List.find?_eq_none, classes, List.mem_map]
  constructor
  · rintro h ⟨b, hb, heq⟩
    exact h b hb (Quotient.exact heq)
  · exact fun h b hb hmatches => h ⟨b, hb, Quotient.sound hmatches⟩

theorem contains_iff : c.contains config = true ↔ config.keyClass ∈ c.classes := by
  rw [contains, Option.isSome_iff_ne_none, ne_eq, find?_eq_none_iff, not_not, Configuration.keyClass]

theorem find?_insert_of_some (h : c.find? k = some answer) (k' : Key) (answer' : Option Assembly) :
    (c.insert k' answer').find? k = some answer := by
  obtain ⟨b, hb, hanswer⟩ := Option.map_eq_some_iff.1 h
  rw [find?, insert, List.find?_append, hb]
  exact congrArg some hanswer

theorem find?_insert_self (h : c.find? k = none) (answer : Option Assembly) :
    (c.insert k answer).find? k = some answer := by
  rw [find?, Option.map_eq_none_iff] at h
  simp [find?, insert, h, Key.matches?_refl]

end Cache

/-! ### One request -/

variable {archive archive' : Archive} {c : CacheId} {config : Configuration} {answer : Option Assembly}
  {r : Request} {past : List Request}

theorem Archive.cache_modify {w : Workspace} (h : c < archive.caches.length) (f : Cache → Cache) :
    (Archive.mk w (archive.caches.modify c f)).cache c = f (archive.cache c) := by
  simp [Archive.cache, List.getD_eq_getElem?_getD, h]

theorem build_run {α : Type} {b : Build α} {x : α} {w : Workspace} (h : b.run archive.workspace = .ok x w) :
    (Keep.build b).run archive = .ok x { archive with workspace := w } := by
  rw [EStateM.run, Keep.build]
  simp only [h]

theorem cache_run (c : CacheId) : (Keep.cache c).run archive = .ok (archive.cache c) archive := rfl

theorem getOrBuild_run_of_some (h : (archive.cache c).find? (Key.ofConfiguration config) = some answer) :
    (Keep.getOrBuild c config).run archive = .ok answer archive := by
  rw [Keep.getOrBuild, run_bind_ok (cache_run c)]
  simp only [h]
  rfl

theorem getOrBuild_run_of_none {w : Workspace} (h : (archive.cache c).find? (Key.ofConfiguration config) = none)
    (hrun : (Catalog.assemble config).run archive.workspace = .ok answer w) :
    (Keep.getOrBuild c config).run archive =
      .ok answer ⟨frozenIn w answer, archive.caches.modify c (·.insert (Key.ofConfiguration config) answer)⟩ := by
  rw [Keep.getOrBuild, run_bind_ok (cache_run c)]
  simp only [h]
  refine (run_bind_ok (build_run hrun)).trans ?_
  cases answer with
  | none => rfl
  | some a => rfl

theorem get_run_of_none {l : Library} (hquery : config.query ≠ Query.dummy.name)
    (h : (Keep.getOrBuild l.cache config).run archive = .ok none archive') :
    (l.get config).run archive = .ok none archive' := by
  rw [Library.get, if_neg hquery]
  exact run_bind_ok h

theorem get_run_of_some {l : Library} {a : Assembly} {compiled : CompiledGraph}
    (hquery : config.query ≠ Query.dummy.name) (h : (Keep.getOrBuild l.cache config).run archive = .ok (some a) archive')
    (hcompiled : CompiledGraph.compile archive'.workspace config.query ⟨config.domain, config.queue⟩ a.graph a.shape =
      .ok compiled) : (l.get config).run archive = .ok (some (.network compiled)) archive' := by
  have hcompile : (Keep.build (Build.ask fun w =>
      CompiledGraph.compile w config.query ⟨config.domain, config.queue⟩ a.graph a.shape)).run archive' =
        .ok compiled archive' := by
    refine build_run ?_
    rw [Build.ask_run, hcompiled]
  rw [Library.get, if_neg hquery]
  exact (run_bind_ok h).trans (run_bind_ok hcompile)

theorem watched_cache_run (c : CacheId) :
    ((liftM (Keep.cache c) : Watch Cache).run []).run archive = .ok (archive.cache c, []) archive := rfl

theorem request_run_of_some (h : (archive.cache c).find? (Key.ofConfiguration config) = some answer) :
    (Keep.request c config).run archive = .ok ⟨config, answer, []⟩ archive := by
  have hwatched : ((Keep.getOrBuildBy Watch.assemble c config).run []).run archive = .ok (answer, []) archive := by
    rw [Keep.getOrBuildBy, StateT.run_bind]
    refine (run_bind_ok (watched_cache_run c)).trans ?_
    simp only [h]
    rfl
  exact run_bind_ok hwatched

theorem request_run_of_none {w : Workspace} (h : (archive.cache c).find? (Key.ofConfiguration config) = none)
    (hrun : (Catalog.assemble config).run archive.workspace = .ok answer w) :
    (Keep.request c config).run archive = .ok ⟨config, answer, [(config, answer)]⟩
      ⟨frozenIn w answer, archive.caches.modify c (·.insert (Key.ofConfiguration config) answer)⟩ := by
  have hassemble : ((Watch.assemble config).run []).run archive =
      .ok (answer, [(config, answer)]) { archive with workspace := w } := by
    have hbuild : ((liftM (Keep.build (Catalog.assemble config)) : Watch (Option Assembly)).run []).run archive =
        .ok (answer, []) { archive with workspace := w } := run_bind_ok (build_run hrun)
    rw [Watch.assemble, StateT.run_bind]
    exact run_bind_ok hbuild
  have hwatched : ((Keep.getOrBuildBy Watch.assemble c config).run []).run archive =
      .ok (answer, [(config, answer)])
        ⟨frozenIn w answer, archive.caches.modify c (·.insert (Key.ofConfiguration config) answer)⟩ := by
    rw [Keep.getOrBuildBy, StateT.run_bind]
    refine (run_bind_ok (watched_cache_run c)).trans ?_
    simp only [h, StateT.run_bind]
    refine (run_bind_ok hassemble).trans ?_
    cases answer with
    | none => rfl
    | some a => rfl
  exact run_bind_ok hwatched

inductive Met (archive : Archive) (c : CacheId) (config : Configuration) : Request → Archive → Prop
  | hit {answer : Option Assembly} (hfind : (archive.cache c).find? (Key.ofConfiguration config) = some answer) :
    Met archive c config ⟨config, answer, []⟩ archive
  | miss {answer : Option Assembly} {w : Workspace}
    (hfind : (archive.cache c).find? (Key.ofConfiguration config) = none)
    (hfeasible : answer.isSome = true ↔ Catalog.Feasible config) (hkeep : archive.workspace.KeepsFrozen w)
    (hserves : ∀ a, answer = some a →
      w.Serves ⟨config.domain, config.queue⟩ (outputTypes config.wiring?) a.graph) :
    Met archive c config ⟨config, answer, [(config, answer)]⟩
      ⟨w, archive.caches.modify c (·.insert (Key.ofConfiguration config) answer)⟩

theorem exists_met (archive : Archive) (c : CacheId) (config : Configuration) : ∃ r archive',
    Met archive c config r archive' ∧ (Keep.request c config).run archive = .ok r archive' ∧
      (Keep.getOrBuild c config).run archive = .ok r.answer archive' := by
  cases hfind : (archive.cache c).find? (Key.ofConfiguration config) with
  | some answer =>
    exact ⟨_, _, .hit hfind, request_run_of_some hfind, getOrBuild_run_of_some hfind⟩
  | none =>
    obtain ⟨answer, w, hrun, hfeasible, hkeep, hserves⟩ := Catalog.exists_assemble config archive.workspace
    exact ⟨_, _, .miss hfind hfeasible hkeep hserves, request_run_of_none hfind hrun,
      getOrBuild_run_of_none hfind hrun⟩

/-! ### What requests keep -/

/-- A cache that keeps one answer for each class, every graph among them ready to be handed out. -/
structure Kept (archive : Archive) (c : CacheId) : Prop where
  lt : c < archive.caches.length
  distinct : (archive.cache c).classes.Nodup
  serves : ∀ b ∈ (archive.cache c).builds, ∀ a, b.2 = some a →
    archive.workspace.Serves ⟨b.1.domain, b.1.queue⟩ (outputTypes (wiring? b.1.query b.1.property)) a.graph

theorem Kept.serves_of_find? {a : Assembly} (h : Kept archive c)
    (hfind : (archive.cache c).find? (Key.ofConfiguration config) = some (some a)) :
    archive.workspace.Serves ⟨config.domain, config.queue⟩ (outputTypes config.wiring?) a.graph := by
  obtain ⟨b, hb, hclass, hanswer⟩ := Cache.exists_of_find? hfind
  have hmatches : b.1.matches? (Key.ofConfiguration config) = true := Quotient.exact hclass
  obtain ⟨⟨-, hqueue, hdomain, -⟩, -⟩ := Key.matches?_iff.1 hmatches
  have hserves := h.serves b hb a hanswer
  rwa [hqueue, hdomain, Key.wiring?_congr hmatches] at hserves

theorem Met.config_eq (h : Met archive c config r archive') : r.config = config := by
  cases h <;> rfl

theorem Met.keepsFrozen (h : Met archive c config r archive') :
    archive.workspace.KeepsFrozen archive'.workspace := by
  cases h with
  | hit hfind => exact .refl _
  | miss hfind hfeasible hkeep hserves => exact hkeep

theorem Met.kept (h : Met archive c config r archive') (hk : Kept archive c) : Kept archive' c := by
  cases h with
  | hit hfind => exact hk
  | miss hfind hfeasible hkeep hserves =>
    refine ⟨by simpa using hk.lt, ?_, ?_⟩
    · rw [Archive.cache_modify hk.lt, Cache.classes_insert]
      rw [Cache.find?_eq_none_iff] at hfind
      simpa [List.nodup_append] using ⟨hk.distinct, fun k hk heq => hfind (heq ▸ hk)⟩
    · rw [Archive.cache_modify hk.lt]
      intro b hb a ha
      obtain hb | hb := List.mem_append.1 hb
      · exact (hk.serves b hb a ha).mono hkeep
      · obtain rfl := List.mem_singleton.1 hb
        exact hserves a ha

theorem Met.find?_mono (h : Met archive c config r archive') (hk : Kept archive c) {k : Key}
    (hfind : (archive.cache c).find? k = some answer) : (archive'.cache c).find? k = some answer := by
  cases h with
  | hit => exact hfind
  | miss =>
    rw [Archive.cache_modify hk.lt]
    exact Cache.find?_insert_of_some hfind _ _

theorem Met.find?_self (h : Met archive c config r archive') (hk : Kept archive c) :
    (archive'.cache c).find? (Key.ofConfiguration config) = some r.answer := by
  cases h with
  | hit hfind => exact hfind
  | miss hfind =>
    rw [Archive.cache_modify hk.lt]
    exact Cache.find?_insert_self hfind _

/-- A cache that holds what the requests so far were answered, and nothing else. -/
structure Recorded (past : List Request) (archive : Archive) (c : CacheId) : Prop where
  kept : ∀ r ∈ past, (archive.cache c).find? (Key.ofConfiguration r.config) = some r.answer
  asked : ∀ k ∈ (archive.cache c).classes, ∃ r ∈ past, r.config.keyClass = k
  feasible : ∀ r ∈ past, r.answer.isSome = true ↔ Catalog.Feasible r.config

theorem Recorded.mem_classes_iff (h : Recorded past archive c) {k : Key.Class} :
    k ∈ (archive.cache c).classes ↔ ∃ r ∈ past, r.config.keyClass = k := by
  refine ⟨h.asked k, ?_⟩
  rintro ⟨r, hr, rfl⟩
  rw [← Cache.contains_iff, Cache.contains, h.kept r hr]
  rfl

theorem Recorded.size_eq_zero_iff (h : Recorded past archive c) : (archive.cache c).size = 0 ↔ past = [] := by
  rw [Cache.size, List.length_eq_zero_iff, ← List.map_eq_nil_iff, List.eq_nil_iff_forall_not_mem]
  constructor
  · intro hnone
    rw [List.eq_nil_iff_forall_not_mem]
    exact fun r hr => hnone _ (h.mem_classes_iff.2 ⟨r, hr, rfl⟩)
  · rintro rfl k hk
    obtain ⟨r, hr, -⟩ := h.asked k hk
    nomatch hr

/-- One request of a class has its graph assembled, if it is the first, and is answered as the others are. -/
structure Request.Follows (past : List Request) (r : Request) : Prop where
  assembled : r.assembled =
    if ∃ x ∈ past, x.config.keyClass = r.config.keyClass then [] else [(r.config, r.answer)]
  answer : ∀ x ∈ past, x.config.keyClass = r.config.keyClass → r.answer = x.answer

theorem Met.follows (h : Met archive c config r archive') (hp : Recorded past archive c) : r.Follows past := by
  cases h with
  | @hit answer hfind =>
    have hfound : ∀ x ∈ past, x.config.keyClass = config.keyClass → answer = x.answer := by
      intro x hx hclass
      have hkept := hp.kept x hx
      rw [Cache.find?_congr hclass, hfind] at hkept
      exact Option.some.inj hkept
    refine ⟨(if_pos ?_).symm, hfound⟩
    rw [← hp.mem_classes_iff, ← Cache.contains_iff, Cache.contains, hfind]
    rfl
  | miss hfind =>
    rw [Cache.find?_eq_none_iff, hp.mem_classes_iff] at hfind
    exact ⟨(if_neg hfind).symm, fun x hx hclass => absurd ⟨x, hx, hclass⟩ hfind⟩

theorem Met.recorded (h : Met archive c config r archive') (hk : Kept archive c) (hp : Recorded past archive c) :
    Recorded (past ++ [r]) archive' c := by
  have hself := h.find?_self hk
  have hfollows := h.follows hp
  have hconfig := h.config_eq
  refine ⟨fun x hx => ?_, fun k hkey => ?_, fun x hx => ?_⟩
  · obtain hx | hx := List.mem_append.1 hx
    · exact h.find?_mono hk (hp.kept x hx)
    · rw [List.mem_singleton.1 hx, hconfig]
      exact hself
  · cases h with
    | hit =>
      obtain ⟨x, hx, hclass⟩ := hp.asked k hkey
      exact ⟨x, List.mem_append_left _ hx, hclass⟩
    | miss =>
      rw [Archive.cache_modify hk.lt, Cache.classes_insert] at hkey
      obtain hkey | hkey := List.mem_append.1 hkey
      · obtain ⟨x, hx, hclass⟩ := hp.asked k hkey
        exact ⟨x, List.mem_append_left _ hx, hclass⟩
      · exact ⟨_, List.mem_append_right _ (List.mem_singleton_self _), (List.mem_singleton.1 hkey).symm⟩
  · obtain hx | hx := List.mem_append.1 hx
    · exact hp.feasible x hx
    · rw [List.mem_singleton.1 hx]
      cases h with
      | hit hfind =>
        -- the answer was given before, to a request that asks for the same pipeline
        have hmem : config.keyClass ∈ (archive.cache c).classes := by
          rw [← Cache.contains_iff, Cache.contains, hfind]
          rfl
        obtain ⟨y, hy, hclass⟩ := hp.asked _ hmem
        rw [hfollows.answer y hy hclass, hp.feasible y hy]
        exact Catalog.feasible_congr hclass
      | miss _ hfeasible => exact hfeasible

/-! ### All requests -/

theorem exists_requests (hk : Kept archive c) (hp : Recorded past archive c) (cs : List Configuration) :
    ∃ rows final, (cs.mapM (Keep.request c)).run archive = .ok rows final ∧
      (cs.mapM (Keep.getOrBuild c)).run archive = .ok (rows.map Request.answer) final ∧
      rows.map Request.config = cs ∧ Kept final c ∧ Recorded (past ++ rows) final c ∧
      ∀ before r after, rows = before ++ r :: after → r.Follows (past ++ before) := by
  induction cs generalizing archive past with
  | nil =>
    refine ⟨[], archive, rfl, rfl, rfl, hk, by rwa [List.append_nil], fun before r after heq => ?_⟩
    exact absurd heq (by simp)
  | cons config cs ih =>
    obtain ⟨r, archive', hmet, hrequest, hget⟩ := exists_met archive c config
    obtain ⟨rows, final, hrequests, hgets, hconfigs, hkept, hrecorded, hfollow⟩ :=
      ih (hmet.kept hk) (hmet.recorded hk hp)
    rw [List.append_assoc, List.singleton_append] at hrecorded
    refine ⟨r :: rows, final, ?_, ?_, ?_, hkept, hrecorded, fun before r' after heq => ?_⟩
    · rw [List.mapM_cons, run_bind_ok hrequest]
      exact run_bind_ok hrequests
    · rw [List.mapM_cons, run_bind_ok hget]
      exact run_bind_ok hgets
    · rw [List.map_cons, hconfigs, hmet.config_eq]
    · cases before with
      | nil =>
        obtain ⟨rfl, -⟩ := List.cons.inj heq
        rw [List.append_nil]
        exact hmet.follows hp
      | cons r₀ before =>
        obtain ⟨rfl, hrest⟩ := List.cons.inj heq
        have := hfollow before r' after hrest
        rwa [List.append_assoc, List.singleton_append] at this

def Archive.addCache (archive : Archive) : Archive := { archive with caches := archive.caches ++ [{ builds := [] }] }

theorem Archive.cache_addCache (archive : Archive) : archive.addCache.cache archive.caches.length = { builds := [] } := by
  simp [Archive.cache, Archive.addCache]

theorem Archive.lt_addCache (archive : Archive) : archive.caches.length < archive.addCache.caches.length := by
  simp [Archive.addCache]

theorem kept_addCache (archive : Archive) : Kept archive.addCache archive.caches.length := by
  refine ⟨archive.lt_addCache, ?_, ?_⟩
  · rw [archive.cache_addCache]
    exact List.nodup_nil
  · rw [archive.cache_addCache]
    exact fun b hb => nomatch hb

theorem recorded_addCache (archive : Archive) : Recorded [] archive.addCache archive.caches.length := by
  refine ⟨fun r hr => (nomatch hr), ?_, fun r hr => (nomatch hr)⟩
  rw [archive.cache_addCache]
  exact fun k hk => nomatch hk

/-- Whatever is asked of a new cache, in any order: every request is answered. The catalog assembles a
graph at the first request of each class of keys and at no other, and all requests of the class are given
what came of it: a graph, frozen with its groups, exactly if the configuration has a pipeline. The cache
counts the classes that were asked for, and contains the configurations in them. -/
theorem requests_at_new_cache (archive : Archive) (cs : List Configuration) :
    ∃ c started rows final, Keep.newCache.run archive = .ok c started ∧
      (cs.mapM (Keep.request c)).run started = .ok rows final ∧
      (cs.mapM (Keep.getOrBuild c)).run started = .ok (rows.map Request.answer) final ∧
      rows.map Request.config = cs ∧
      (∀ before r after, rows = before ++ r :: after → r.Follows before) ∧
      (∀ r ∈ rows, (r.answer.isSome = true ↔ Catalog.Feasible r.config) ∧
        ∀ a, r.answer = some a → final.workspace.Sealed a.graph) ∧
      (final.cache c).size = (cs.map Configuration.keyClass).toFinset.card ∧
      ∀ config, (final.cache c).contains config = true ↔ config.keyClass ∈ cs.map Configuration.keyClass := by
  obtain ⟨rows, final, hrequests, hgets, hconfigs, hkept, hrecorded, hfollow⟩ :=
    exists_requests (kept_addCache archive) (recorded_addCache archive) cs
  have hclasses (k : Key.Class) : k ∈ (final.cache archive.caches.length).classes ↔
      k ∈ cs.map Configuration.keyClass := by
    rw [hrecorded.mem_classes_iff, ← hconfigs, List.map_map, List.mem_map]
    rfl
  refine ⟨archive.caches.length, archive.addCache, rows, final, rfl, hrequests, hgets, hconfigs, hfollow,
    fun r hr => ⟨hrecorded.feasible r hr, ?_⟩, ?_, fun config => ?_⟩
  · intro a ha
    exact (hkept.serves_of_find? ((hrecorded.kept r hr).trans (congrArg some ha))).sealed
  · calc (final.cache archive.caches.length).size
        _ = (final.cache archive.caches.length).classes.length := by rw [Cache.size, Cache.classes, List.length_map]
        _ = (final.cache archive.caches.length).classes.toFinset.card :=
          (List.toFinset_card_of_nodup hkept.distinct).symm
        _ = (cs.map Configuration.keyClass).toFinset.card :=
          congrArg Finset.card (Finset.ext fun k => by rw [List.mem_toFinset, List.mem_toFinset, hclasses])
  · rw [Cache.contains_iff, hclasses]

end StreamCheck.Pipeline
