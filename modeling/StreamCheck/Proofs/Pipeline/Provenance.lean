import StreamCheck.Proofs.Pipeline.Libraries
import StreamCheck.Proofs.Pipeline.Models

/-! Provenance: every graph that a cache hands out was assembled by the catalog for a configuration of the same class,
and is compiled and counted as when it was new. So what a library returns for a configuration is told by the
configuration and by the workspace in which its graph was assembled. -/

namespace StreamCheck.Network.Workspace
open Smv
variable {w w' : Workspace} {z : Sizes} {types : List PortType} {g : GraphId}

theorem Serves.alike (h : w.Serves z types g) (hkeep : w.KeepsFrozen w') {fuel fuel' : Nat} (hfuel : w.depth ≤ fuel)
    (hfuel' : w.depth ≤ fuel') : w.Alike w' fuel fuel' g := by
  obtain ⟨height, hheight, hnests⟩ := h.nests
  exact hnests.alike (Nat.le_trans hheight hfuel) (Nat.le_trans hheight hfuel') fun _ _ => h.sealed.graph_eq hkeep

theorem Serves.compile_eq (h : w.Serves z types g) (hkeep : w.KeepsFrozen w') (s : Sizes) :
    w'.compile s g = w.compile s g := by
  have hdepth : w.depth ≤ w'.depth := Nat.succ_le_succ hkeep.length_le
  have halike : w.Alike w' w.depth w'.depth g := h.alike hkeep (Nat.le_refl _) hdepth
  exact halike.compile_eq fun side _ he => halike.typeOf_eq h.wired side he

theorem Serves.count_eq (h : w.Serves z types g) (hkeep : w.KeepsFrozen w') : w'.count g = w.count g := by
  have hdepth : w.depth ≤ w'.depth := Nat.succ_le_succ hkeep.length_le
  exact (h.alike hkeep (Nat.le_succ _) (Nat.le_succ_of_le hdepth)).count_eq

end StreamCheck.Network.Workspace

namespace StreamCheck.Pipeline
open Network

namespace Catalog
variable {c c' : Configuration} {w w' : Workspace} {answer : Option Assembly}

/-- What an answer for a configuration goes back to: there is none because there is no pipeline, or a graph is as the
catalog assembled it, in whatever workspace there was then. -/
inductive Accounts (c : Configuration) (w : Workspace) : Option Assembly → Prop
  | nothing (infeasible : ¬ Feasible c) : Accounts c w none
  | graph {before after : Workspace} {new a : Assembly} (run : (assemble c).run before = .ok (some new) after)
    (shape : a.shape = new.shape) (compile : ∀ s, w.compile s a.graph = after.compile s new.graph)
    (count : w.count a.graph = after.count new.graph) : Accounts c w (some a)

theorem Accounts.congr (h : Accounts c w answer) (hclass : c.keyClass = c'.keyClass) : Accounts c' w answer := by
  have hassemble := Key.assemble_eq_of_matches (Configuration.matches?_of_keyClass_eq hclass)
  cases h with
  | nothing infeasible => exact .nothing (mt (feasible_congr hclass).2 infeasible)
  | graph run shape compile count => exact .graph (hassemble ▸ run) shape compile count

theorem Accounts.mono {z : Sizes} {types : List PortType} (h : Accounts c w answer)
    (hserves : ∀ a, answer = some a → w.Serves z types a.graph) (hkeep : w.KeepsFrozen w') : Accounts c w' answer := by
  cases h with
  | nothing infeasible => exact .nothing infeasible
  | @graph before after new a run shape compile count =>
    have hgraph := hserves a rfl
    refine .graph run shape (fun s => ?_) ?_
    · rw [hgraph.compile_eq hkeep, compile]
    · rw [hgraph.count_eq hkeep, count]

theorem accounts_frozenIn {before : Workspace} (hrun : (assemble c).run before = .ok answer w) :
    Accounts c (frozenIn w answer) answer := by
  cases answer with
  | none =>
    obtain ⟨answer, w', hassemble, hfeasible, -⟩ := exists_assemble c before
    obtain ⟨rfl, -⟩ := EStateM.Result.ok.inj (hassemble.symm.trans hrun)
    exact .nothing fun h => Bool.noConfusion (hfeasible.2 h)
  | some a =>
    have hsame := Workspace.SameButFrozen.freeze w a.graph
    exact .graph hrun rfl (fun s => hsame.compile_eq a.graph) (hsame.count_eq a.graph)

end Catalog

/-! ### Requests -/

variable {archive archive' : Archive} {c : CacheId} {config : Configuration} {answer : Option Assembly}

/-- The two ways in which a request is answered: from the cache, or with what the catalog assembles. -/
inductive Answered (archive : Archive) (c : CacheId) (config : Configuration) : Option Assembly → Archive → Prop
  | kept {answer : Option Assembly} (find : (archive.cache c).find? (Key.ofConfiguration config) = some answer) :
    Answered archive c config answer archive
  | assembled {answer : Option Assembly} {w : Workspace}
    (find : (archive.cache c).find? (Key.ofConfiguration config) = none)
    (run : (Catalog.assemble config).run archive.workspace = .ok answer w) : Answered archive c config answer
      ⟨frozenIn w answer, archive.caches.modify c (·.insert (Key.ofConfiguration config) answer)⟩

theorem exists_answered (archive : Archive) (c : CacheId) (config : Configuration) : ∃ answer archive',
    Answered archive c config answer archive' ∧ (Keep.getOrBuild c config).run archive = .ok answer archive' := by
  cases hfind : (archive.cache c).find? (Key.ofConfiguration config) with
  | some answer => exact ⟨answer, archive, .kept hfind, getOrBuild_run_of_some hfind⟩
  | none =>
    obtain ⟨answer, w, hrun, -⟩ := Catalog.exists_assemble config archive.workspace
    exact ⟨answer, _, .assembled hfind hrun, getOrBuild_run_of_none hfind hrun⟩

theorem Answered.met (h : Answered archive c config answer archive') :
    ∃ assembled, Met archive c config ⟨config, answer, assembled⟩ archive' := by
  cases h with
  | kept find => exact ⟨[], .hit find⟩
  | assembled find run =>
    obtain ⟨answer', w', hrun, hfeasible, hkeep, hserves⟩ := Catalog.exists_assemble config archive.workspace
    obtain ⟨rfl, rfl⟩ := EStateM.Result.ok.inj (hrun.symm.trans run)
    exact ⟨_, .miss find hfeasible hkeep hserves⟩

theorem Answered.kept_of_kept (h : Answered archive c config answer archive') (hk : Kept archive c) :
    Kept archive' c := by
  obtain ⟨assembled, hmet⟩ := h.met
  exact hmet.kept hk

theorem Answered.find?_self (h : Answered archive c config answer archive') (hk : Kept archive c) :
    (archive'.cache c).find? (Key.ofConfiguration config) = some answer := by
  obtain ⟨assembled, hmet⟩ := h.met
  exact hmet.find?_self hk

def Traced (archive : Archive) (c : CacheId) : Prop :=
  ∀ b ∈ (archive.cache c).builds, ∃ config : Configuration, config.keyClass = ⟦b.1⟧ ∧
    Catalog.Accounts config archive.workspace b.2

theorem traced_addCache (archive : Archive) : Traced archive.addCache archive.caches.length := by
  intro b hb
  rw [archive.cache_addCache] at hb
  nomatch hb

theorem Answered.traced (h : Answered archive c config answer archive') (hk : Kept archive c)
    (ht : Traced archive c) : Traced archive' c := by
  obtain ⟨assembled, hmet⟩ := h.met
  have hkeep := hmet.keepsFrozen
  cases h with
  | kept find => exact ht
  | assembled find run =>
    intro b hb
    rw [Archive.cache_modify hk.lt] at hb
    obtain hb | hb := List.mem_append.1 hb
    · obtain ⟨config', hclass, haccounts⟩ := ht b hb
      exact ⟨config', hclass, haccounts.mono (hk.serves b hb) hkeep⟩
    · obtain rfl := List.mem_singleton.1 hb
      exact ⟨config, rfl, Catalog.accounts_frozenIn run⟩

theorem Answered.accounts (h : Answered archive c config answer archive') (ht : Traced archive c) :
    Catalog.Accounts config archive'.workspace answer := by
  cases h with
  | kept find =>
    obtain ⟨b, hb, hclass, rfl⟩ := Cache.exists_of_find? find
    obtain ⟨config', hclass', haccounts⟩ := ht b hb
    exact haccounts.congr (hclass'.trans hclass)
  | assembled find run => exact Catalog.accounts_frozenIn run

theorem exists_answers (hk : Kept archive c) (ht : Traced archive c) (cs : List Configuration) : ∃ answers final,
    (cs.mapM (Keep.getOrBuild c)).run archive = .ok answers final ∧ Kept final c ∧ Traced final c := by
  have hstep : ∀ config ∈ cs, ∀ archive, Kept archive c ∧ Traced archive c → ∃ answer archive',
      (Keep.getOrBuild c config).run archive = .ok answer archive' ∧ (Kept archive' c ∧ Traced archive' c) ∧ True := by
    rintro config - archive ⟨hk, ht⟩
    obtain ⟨answer, archive', hanswered, hrun⟩ := exists_answered archive c config
    exact ⟨answer, archive', hrun, ⟨hanswered.kept_of_kept hk, hanswered.traced hk ht⟩, trivial⟩
  obtain ⟨answers, final, hruns, ⟨hkept, htraced⟩, -⟩ := exists_mapM_run_of_step hstep ⟨hk, ht⟩
  exact ⟨answers, final, hruns, hkept, htraced⟩

theorem exists_traced_library (archive : Archive) (history : List Configuration) :
    ∃ c started answers asked library opened, Keep.newCache.run archive = .ok c started ∧
      (history.mapM (Keep.getOrBuild c)).run started = .ok answers asked ∧
      (Library.ofCache c).run asked = .ok library opened ∧ Kept opened library.cache ∧ Traced opened library.cache := by
  obtain ⟨answers, asked, hasked, hkept, htraced⟩ :=
    exists_answers (kept_addCache archive) (traced_addCache archive) history
  obtain ⟨library, opened, hlibrary, hkept, htraced⟩ :=
    exists_ofCache (P := fun archive c => Kept archive c ∧ Traced archive c)
      (fun archive => ⟨kept_addCache archive, traced_addCache archive⟩) ⟨hkept, htraced⟩
  exact ⟨_, _, _, asked, library, opened, rfl, hasked, hlibrary, hkept, htraced⟩

/-! ### What a library returns -/

structure Configuration.Compiles (c : Configuration) (w : Workspace) (P Q : Plan) (compiled : CompiledGraph) : Prop where
  plans : ∃ q, Query.ofName? c.query = some q ∧ q.blueprint c.domain.toNat c.shape = some P ∧
    q.counterpart c.domain.toNat c.shape = some Q
  name : compiled.name = c.query
  sizes : compiled.sizes = ⟨c.domain, c.queue⟩
  shape : compiled.shape = Catalog.shapeOf P Q c.wiring?
  processors : compiled.processors = (Catalog.built w (Catalog.domain_toNat_pos c) (Catalog.queue_toNat_pos c) P Q
    c.wiring?).count w.graphs.length
  model : IsModel c P Q w compiled

inductive Configuration.Yields (c : Configuration) : Option Subject → Prop
  | counter (dummy : c.query = Query.dummy.name) : Yields c (some (.counter c.queue c.domain))
  | nothing (query : c.query ≠ Query.dummy.name) (infeasible : ¬ Catalog.Feasible c) : Yields c none
  | network {w : Workspace} {P Q : Plan} {compiled : CompiledGraph} (compiles : c.Compiles w P Q compiled) :
    Yields c (some (.network compiled))

theorem Catalog.Accounts.exists_compiles {w : Workspace} {a : Assembly} (h : Accounts config w (some a)) :
    ∃ (before : Workspace) (P Q : Plan) (compiled : CompiledGraph),
      CompiledGraph.compile w config.query ⟨config.domain, config.queue⟩ a.graph a.shape = .ok compiled ∧
      config.Compiles before P Q compiled := by
  cases h with
  | @graph before after new _ run shape compile count =>
    obtain ⟨q, P, Q, hquery, hP, hQ⟩ := Feasible.exists_plans ⟨before, new, after, run⟩
    have hassemble := assemble_run (w := before) hquery hP hQ
    obtain ⟨hnew, rfl⟩ := EStateM.Result.ok.inj (hassemble.symm.trans run)
    obtain rfl := Option.some.inj hnew
    obtain ⟨hbehaves, hbehaves'⟩ := plans_behave hP hQ
    obtain ⟨m, hm⟩ := (complete_built hbehaves hbehaves' config.wiring?).exists_compile
      (two_le_depth_built config.wiring?) (orderly_built (w := before) config.wiring?)
    have hcompile := (compile ⟨config.domain, config.queue⟩).trans hm
    let compiled : CompiledGraph :=
      ⟨config.query, ⟨config.domain, config.queue⟩, a.shape, a.graph, w.count a.graph, m⟩
    refine ⟨before, P, Q, compiled, ?_, ⟨q, hquery, hP, hQ⟩, rfl, rfl, shape, count, hm⟩
    rw [CompiledGraph.compile, hcompile]
    rfl

inductive Library.Got (l : Library) (archive : Archive) (c : Configuration) : Option Subject → Archive → Prop
  | counter (dummy : c.query = Query.dummy.name) : Got l archive c (some (.counter c.queue c.domain)) archive
  | nothing {archive' : Archive} (query : c.query ≠ Query.dummy.name)
    (answered : Answered archive l.cache c none archive') : Got l archive c none archive'
  | network {archive' : Archive} {a : Assembly} {compiled : CompiledGraph} (query : c.query ≠ Query.dummy.name)
    (answered : Answered archive l.cache c (some a) archive')
    (compiles : CompiledGraph.compile archive'.workspace c.query ⟨c.domain, c.queue⟩ a.graph a.shape = .ok compiled) :
    Got l archive c (some (.network compiled)) archive'

namespace Library
variable {l : Library} {m : Option Subject}

theorem exists_got (ht : Traced archive l.cache) (config : Configuration) :
    ∃ m archive', l.Got archive config m archive' ∧ (l.get config).run archive = .ok m archive' := by
  by_cases hquery : config.query = Query.dummy.name
  · have hget : (l.get config).run archive = .ok (some (.counter config.queue config.domain)) archive := by
      rw [get, if_pos hquery]
      rfl
    exact ⟨_, _, .counter hquery, hget⟩
  · obtain ⟨answer, archive', hanswered, hrun⟩ := exists_answered archive l.cache config
    cases answer with
    | none => exact ⟨_, _, .nothing hquery hanswered, get_run_of_none hquery hrun⟩
    | some a =>
      obtain ⟨before, P, Q, compiled, hcompiled, -⟩ := (hanswered.accounts ht).exists_compiles
      exact ⟨_, _, .network hquery hanswered hcompiled, get_run_of_some hquery hrun hcompiled⟩

theorem Got.kept (h : l.Got archive config m archive') (hk : Kept archive l.cache) : Kept archive' l.cache := by
  cases h with
  | counter dummy => exact hk
  | nothing query answered => exact answered.kept_of_kept hk
  | network query answered compiles => exact answered.kept_of_kept hk

theorem Got.traced (h : l.Got archive config m archive') (hk : Kept archive l.cache) (ht : Traced archive l.cache) :
    Traced archive' l.cache := by
  cases h with
  | counter dummy => exact ht
  | nothing query answered => exact answered.traced hk ht
  | network query answered compiles => exact answered.traced hk ht

theorem Got.yields (h : l.Got archive config m archive') (ht : Traced archive l.cache) : config.Yields m := by
  cases h with
  | counter dummy => exact .counter dummy
  | nothing query answered =>
    cases answered.accounts ht with
    | nothing infeasible => exact .nothing query infeasible
  | network query answered compiles =>
    obtain ⟨before, P, Q, compiled, hcompiled, hcompiles⟩ := (answered.accounts ht).exists_compiles
    obtain rfl := Except.ok.inj (hcompiled.symm.trans compiles)
    exact .network hcompiles

theorem exists_gets (hk : Kept archive l.cache) (ht : Traced archive l.cache) (cs : List Configuration) :
    ∃ ms final, (cs.mapM l.get).run archive = .ok ms final ∧ List.Forall₂ Configuration.Yields cs ms := by
  have hstep : ∀ config ∈ cs, ∀ archive, Kept archive l.cache ∧ Traced archive l.cache → ∃ m archive',
      (l.get config).run archive = .ok m archive' ∧ (Kept archive' l.cache ∧ Traced archive' l.cache) ∧
        config.Yields m := by
    rintro config - archive ⟨hk, ht⟩
    obtain ⟨m, archive', hgot, hget⟩ := exists_got ht config
    exact ⟨m, archive', hget, ⟨hgot.kept hk, hgot.traced hk ht⟩, hgot.yields ht⟩
  obtain ⟨ms, final, hgets, -, hyields⟩ := exists_mapM_run_of_step hstep ⟨hk, ht⟩
  exact ⟨ms, final, hgets, hyields⟩

end Library
end StreamCheck.Pipeline
