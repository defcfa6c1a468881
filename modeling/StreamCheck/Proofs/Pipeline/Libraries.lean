import StreamCheck.Proofs.Pipeline.Requests

/-! Libraries over a cache: one that was offered a cache with something in it works through that cache, and
one that was offered an empty cache never does. -/

namespace StreamCheck.Pipeline
open Network

variable {archive archive' : Archive} {c : CacheId} {config : Configuration} {l : Library} {u : Use} {served : Served}

def Wraps : Option Subject → Option Assembly → Prop
  | none, none => True
  | some (.network n), some a => n.graph = a.graph
  | _, _ => False

/-- In the end a cache contains what was asked for, and what was answered comes from it. A counter is not
kept in any cache. -/
def Use.Honoured (c : CacheId) (final : Archive) : Use → Served → Prop
  | model _ config, .model m => config.query ≠ Query.dummy.name →
    (final.cache c).contains config = true ∧
      ∃ a, (Keep.getOrBuild c config).run final = .ok a final ∧ Wraps m a
  | pipeline config, .pipeline a => (Keep.getOrBuild c config).run final = .ok a final
  | _, _ => False

/-- Libraries that work through a cache: however they and the cache itself are used, all that they answer
comes from that cache. -/
def WorkThrough (ls : List Library) (c : CacheId) (archive : Archive) : Prop :=
  ∀ uses : List Use, (∀ u ∈ uses, ∀ l ∈ u.library?, l ∈ ls) →
    ∃ served final, (uses.mapM (Use.perform c)).run archive = .ok served final ∧
      List.Forall₂ (Use.Honoured c final) uses served

/-! ### One use -/

theorem exists_get (hk : Kept archive c) (hquery : config.query ≠ Query.dummy.name) : ∃ r archive' m,
    Met archive c config r archive' ∧ (Library.get ⟨c⟩ config).run archive = .ok m archive' ∧ Wraps m r.answer := by
  obtain ⟨r, archive', hmet, -, hget⟩ := exists_met archive c config
  cases hanswer : r.answer with
  | none =>
    rw [hanswer] at hget
    exact ⟨r, archive', none, hmet, get_run_of_none hquery hget, hanswer ▸ trivial⟩
  | some a =>
    have hfind := hmet.find?_self hk
    rw [hanswer] at hget hfind
    obtain ⟨m, hm⟩ := ((hmet.kept hk).serves_of_find? hfind).compiles
    obtain ⟨compiled, hcompiled, hgraph, -⟩ := CompiledGraph.exists_compile hm config.query a.shape
    exact ⟨r, archive', some (.network compiled), hmet, get_run_of_some hquery hget hcompiled, hanswer ▸ hgraph⟩

def Use.Found (c : CacheId) (archive : Archive) : Use → Served → Prop
  | model _ config, .model m => config.query ≠ Query.dummy.name →
    ∃ a, (archive.cache c).find? (Key.ofConfiguration config) = some a ∧ Wraps m a
  | pipeline config, .pipeline a => (archive.cache c).find? (Key.ofConfiguration config) = some a
  | _, _ => False

def HoldsOn (c : CacheId) (archive archive' : Archive) : Prop :=
  ∀ k answer, (archive.cache c).find? k = some answer → (archive'.cache c).find? k = some answer

theorem HoldsOn.refl (c : CacheId) (archive : Archive) : HoldsOn c archive archive := fun _ _ => id

theorem HoldsOn.trans {archive'' : Archive} (h : HoldsOn c archive archive') (h' : HoldsOn c archive' archive'') :
    HoldsOn c archive archive'' :=
  fun k answer hfind => h' k answer (h k answer hfind)

theorem Use.Found.mono (h : u.Found c archive served) (hold : HoldsOn c archive archive') :
    u.Found c archive' served := by
  cases u <;> cases served
  case model.model =>
    intro hquery
    obtain ⟨a, hfind, hwraps⟩ := h hquery
    exact ⟨a, hold _ _ hfind, hwraps⟩
  case pipeline.pipeline => exact hold _ _ h
  all_goals exact h

theorem Use.Found.honoured (h : u.Found c archive served) : u.Honoured c archive served := by
  cases u <;> cases served
  case model.model =>
    intro hquery
    obtain ⟨a, hfind, hwraps⟩ := h hquery
    refine ⟨?_, a, getOrBuild_run_of_some hfind, hwraps⟩
    rw [Cache.contains, hfind]
    rfl
  case pipeline.pipeline => exact getOrBuild_run_of_some h
  all_goals exact h

theorem exists_perform (hk : Kept archive c) (hu : ∀ l ∈ u.library?, l = ⟨c⟩) : ∃ served archive',
    (u.perform c).run archive = .ok served archive' ∧ Kept archive' c ∧ HoldsOn c archive archive' ∧
      u.Found c archive' served := by
  cases u with
  | model l config =>
    obtain rfl := hu l rfl
    by_cases hquery : config.query = Query.dummy.name
    · -- a counter leaves all caches alone
      have hget : (Library.get ⟨c⟩ config).run archive = .ok (some (.counter config.queue config.domain)) archive := by
        rw [Library.get, if_pos hquery]
        rfl
      exact ⟨_, archive, run_bind_ok hget, hk, fun _ _ => id, fun hne => absurd hquery hne⟩
    · obtain ⟨r, archive', m, hmet, hget, hwraps⟩ := exists_get hk hquery
      exact ⟨_, archive', run_bind_ok hget, hmet.kept hk, fun _ _ => hmet.find?_mono hk,
        fun _ => ⟨r.answer, hmet.find?_self hk, hwraps⟩⟩
  | pipeline config =>
    obtain ⟨r, archive', hmet, -, hget⟩ := exists_met archive c config
    exact ⟨_, archive', run_bind_ok hget, hmet.kept hk, fun _ _ => hmet.find?_mono hk, hmet.find?_self hk⟩

/-! ### All uses -/

theorem exists_performs (uses : List Use) (hk : Kept archive c) (huses : ∀ u ∈ uses, ∀ l ∈ u.library?, l = ⟨c⟩) :
    ∃ served final, (uses.mapM (Use.perform c)).run archive = .ok served final ∧ HoldsOn c archive final ∧
      List.Forall₂ (Use.Found c final) uses served := by
  obtain ⟨served, final, hruns, -, hold, hall⟩ := exists_mapM_run (HoldsOn c) (Use.Found c) (HoldsOn.refl c)
    (fun _ _ _ => HoldsOn.trans) (fun _ _ _ _ hold h => h.mono hold)
    (fun u hu _ hk => exists_perform hk (huses u hu)) hk
  exact ⟨served, final, hruns, hold, hall⟩

theorem workThrough_of_forall_eq {ls : List Library} (hk : Kept archive c) (hls : ∀ l ∈ ls, l = ⟨c⟩) :
    WorkThrough ls c archive := by
  intro uses huses
  obtain ⟨served, final, hrun, -, hall⟩ := exists_performs uses hk fun u hu l hl => hls l (huses u hu l hl)
  exact ⟨served, final, hrun, hall.imp fun _ _ => Use.Found.honoured⟩

/-! ### A cache of one's own -/

theorem Met.cache_eq {c' : CacheId} {r : Request} (h : Met archive c' config r archive') (hne : c' ≠ c) :
    archive'.cache c = archive.cache c := by
  cases h with
  | hit => rfl
  | miss => rw [Archive.cache, Archive.cache, List.getD_eq_getElem?_getD, List.getD_eq_getElem?_getD,
      List.getElem?_modify_ne _ _ hne]

theorem ask_run_ok {α : Type} {question : Workspace → Except Fault α} {x : α}
    (h : (Keep.build (Build.ask question)).run archive = .ok x archive') : archive' = archive := by
  rw [EStateM.run, Keep.build, Build.ask_run] at h
  cases hanswer : question archive.workspace with
  | error e => simp [hanswer] at h
  | ok a =>
    simp only [hanswer] at h
    exact (EStateM.Result.ok.inj h).2.symm

theorem get_cache_eq {m : Option Subject} (h : (l.get config).run archive = .ok m archive') (hne : l.cache ≠ c) :
    archive'.cache c = archive.cache c := by
  rw [Library.get] at h
  split at h
  · obtain ⟨-, rfl⟩ := EStateM.Result.ok.inj h
    rfl
  · obtain ⟨r, met, hmet, -, hget⟩ := exists_met archive l.cache config
    rw [run_bind_ok hget] at h
    rw [← hmet.cache_eq hne]
    cases hanswer : r.answer with
    | none =>
      rw [hanswer] at h
      obtain ⟨-, rfl⟩ := EStateM.Result.ok.inj h
      rfl
    | some a =>
      rw [hanswer] at h
      obtain ⟨compiled, asked, hask, hreturn⟩ := exists_of_run_bind h
      obtain ⟨-, rfl⟩ := EStateM.Result.ok.inj hreturn
      rw [ask_run_ok hask]

theorem not_workThrough {ls : List Library} (hl : l ∈ ls) (hne : l.cache ≠ c)
    (hempty : (archive.cache c).builds = []) : ¬ WorkThrough ls c archive := by
  intro h
  obtain ⟨served, final, hrun, hall⟩ := h [.model l (Key.smallProduct .noFullQueues)] (by simpa [Use.library?] using hl)
  rw [List.mapM_cons] at hrun
  obtain ⟨answer, asked, hperform, hrest⟩ := exists_of_run_bind hrun
  obtain ⟨m, got, hget, hanswer⟩ := exists_of_run_bind hperform
  obtain ⟨rfl, rfl⟩ := EStateM.Result.ok.inj hanswer
  obtain ⟨rfl, rfl⟩ := EStateM.Result.ok.inj hrest
  obtain ⟨hhonoured, -⟩ := List.forall₂_cons.1 hall
  obtain ⟨hcontains, -⟩ := hhonoured (by decide)
  rw [Cache.contains_iff, get_cache_eq hget hne, Cache.classes, hempty] at hcontains
  exact absurd hcontains List.not_mem_nil

/-! ### Opening libraries -/

theorem ofCache_run_of_ne (h : (archive.cache c).size ≠ 0) : (Library.ofCache c).run archive = .ok ⟨c⟩ archive := by
  rw [Library.ofCache, run_bind_ok (cache_run c), if_neg h]
  rfl

theorem ofCache_run_of_eq (h : (archive.cache c).size = 0) :
    (Library.ofCache c).run archive = .ok ⟨archive.caches.length⟩ archive.addCache := by
  rw [Library.ofCache, run_bind_ok (cache_run c), if_pos h]
  rfl

/-- What holds of the cache that is offered, and of every new one, holds of the one that the library works through. -/
theorem exists_ofCache {P : Archive → CacheId → Prop}
    (hnew : ∀ archive : Archive, P archive.addCache archive.caches.length) (hc : P archive c) :
    ∃ library opened, (Library.ofCache c).run archive = .ok library opened ∧ P opened library.cache := by
  by_cases hsize : (archive.cache c).size = 0
  · exact ⟨_, _, ofCache_run_of_eq hsize, hnew archive⟩
  · exact ⟨_, _, ofCache_run_of_ne hsize, hc⟩

theorem exists_opened (archive : Archive) (history : List Configuration) : ∃ c started answers asked library opened,
    Keep.newCache.run archive = .ok c started ∧ (history.mapM (Keep.getOrBuild c)).run started = .ok answers asked ∧
      (Library.ofCache c).run asked = .ok library opened ∧ Kept opened library.cache := by
  obtain ⟨rows, asked, -, hgets, -, hkept, -⟩ :=
    exists_requests (kept_addCache archive) (recorded_addCache archive) history
  obtain ⟨library, opened, hlibrary, hopened⟩ := exists_ofCache kept_addCache hkept
  exact ⟨_, _, _, asked, library, opened, rfl, hgets, hlibrary, hopened⟩

theorem cache_addCache_of_lt (h : c < archive.caches.length) : archive.addCache.cache c = archive.cache c := by
  rw [Archive.cache, Archive.cache, List.getD_eq_getElem?_getD, List.getD_eq_getElem?_getD, Archive.addCache,
    List.getElem?_append_left h]

theorem openings_run_of_ne (h : (archive.cache c).size ≠ 0) (n : Nat) :
    ((List.replicate n c).mapM Library.ofCache).run archive = .ok (List.replicate n ⟨c⟩) archive := by
  induction n with
  | zero => rfl
  | succ n ih =>
    rw [List.replicate_succ, List.mapM_cons, run_bind_ok (ofCache_run_of_ne h), run_bind_ok ih]
    rfl

theorem exists_openings_of_eq (hlt : c < archive.caches.length) (h : (archive.cache c).size = 0) (n : Nat) :
    ∃ ls opened, ((List.replicate n c).mapM Library.ofCache).run archive = .ok ls opened ∧ ls.length = n ∧
      (∀ l ∈ ls, l.cache ≠ c) ∧ opened.cache c = archive.cache c := by
  induction n generalizing archive with
  | zero => exact ⟨[], archive, rfl, rfl, fun l hl => (nomatch hl), rfl⟩
  | succ n ih =>
    have hkept := cache_addCache_of_lt hlt
    obtain ⟨ls, opened, hrun, hlength, hown, hcache⟩ :=
      ih (Nat.lt_trans hlt archive.lt_addCache) (hkept.symm ▸ h)
    refine ⟨⟨archive.caches.length⟩ :: ls, opened, ?_, congrArg Nat.succ hlength, ?_, hcache.trans hkept⟩
    · rw [List.replicate_succ, List.mapM_cons, run_bind_ok (ofCache_run_of_eq h), run_bind_ok hrun]
      rfl
    · exact List.forall_mem_cons.2 ⟨Nat.ne_of_gt hlt, hown⟩

/-- A new cache is asked for pipelines, and then offered to libraries. These work through it exactly if it
has been asked for something: the offer of an empty cache is not taken. -/
theorem libraries_workThrough_iff (archive : Archive) (history : List Configuration) (n : Nat) :
    ∃ c started answers asked ls opened, Keep.newCache.run archive = .ok c started ∧
      (history.mapM (Keep.getOrBuild c)).run started = .ok answers asked ∧
      ((List.replicate (n + 1) c).mapM Library.ofCache).run asked = .ok ls opened ∧ ls.length = n + 1 ∧
      (WorkThrough ls c opened ↔ history ≠ []) := by
  obtain ⟨rows, asked, -, hgets, hconfigs, hkept, hrecorded, -⟩ :=
    exists_requests (kept_addCache archive) (recorded_addCache archive) history
  have hsize := hrecorded.size_eq_zero_iff
  have hhistory : history = [] ↔ rows = [] := by rw [← hconfigs, List.map_eq_nil_iff]
  rw [List.nil_append, ← hhistory] at hsize
  by_cases hempty : history = []
  · obtain ⟨ls, opened, hopen, hlength, hown, hcache⟩ :=
      exists_openings_of_eq hkept.lt (hsize.2 hempty) (n + 1)
    refine ⟨_, _, _, asked, ls, opened, rfl, hgets, hopen, hlength, iff_of_false ?_ (not_not.2 hempty)⟩
    obtain ⟨l, hl⟩ : ∃ l, l ∈ ls := List.exists_mem_of_length_pos (hlength ▸ Nat.succ_pos n)
    refine not_workThrough hl (hown l hl) ?_
    rw [hcache]
    exact List.length_eq_zero_iff.1 (hsize.2 hempty)
  · refine ⟨_, _, _, asked, _, asked, rfl, hgets, openings_run_of_ne (mt hsize.1 hempty) (n + 1),
      List.length_replicate, iff_of_true ?_ hempty⟩
    exact workThrough_of_forall_eq hkept fun l hl => List.eq_of_mem_replicate hl

end StreamCheck.Pipeline
