import StreamCheck.Proofs.Network.Compiling
import StreamCheck.Proofs.Network.Nesting

/-! What is asked of a graph depends only on the graph and those nested in it. Two workspaces that agree on
these answer alike, however many other graphs they have and whichever graphs are frozen. -/

namespace StreamCheck.Network
open Smv

namespace Workspace

/-- Two workspaces agree on a graph and on those nested in it, but for which are frozen, as far down as
their fuels last; these run out together if at all. -/
inductive Alike (w w' : Workspace) : Nat → Nat → GraphId → Prop
  | zero {g : GraphId} (frozen : Bool) (graph_eq : w'.graph g = { w.graph g with frozen := frozen }) :
    Alike w w' 0 0 g
  | succ {fuel fuel' : Nat} {g : GraphId} (frozen : Bool)
    (graph_eq : w'.graph g = { w.graph g with frozen := frozen })
    (inside : ∀ n ∈ (w.graph g).nodes, ∀ inner, n.inner? = some inner → Alike w w' fuel fuel' inner) :
    Alike w w' (fuel + 1) (fuel' + 1) g

variable {w w' : Workspace} {s : Sizes} {fuel fuel' height : Nat} {g : GraphId} {n : Node} {around : List Node}

theorem Alike.exists_graph_eq (h : w.Alike w' fuel fuel' g) :
    ∃ frozen, w'.graph g = { w.graph g with frozen := frozen } := by
  cases h with
  | zero frozen graph_eq => exact ⟨frozen, graph_eq⟩
  | succ frozen graph_eq inside => exact ⟨frozen, graph_eq⟩

theorem NestsWithin.alike (h : w.NestsWithin height g) (hfuel : height ≤ fuel) (hfuel' : height ≤ fuel')
    (hsame : ∀ place inner, w.Within g place inner → w'.graph inner = w.graph inner) :
    w.Alike w' fuel fuel' g := by
  induction height generalizing fuel fuel' g with
  | zero => exact absurd h id
  | succ height ih =>
    obtain ⟨fuel, rfl⟩ := Nat.exists_eq_succ_of_ne_zero (by omega : fuel ≠ 0)
    obtain ⟨fuel', rfl⟩ := Nat.exists_eq_succ_of_ne_zero (by omega : fuel' ≠ 0)
    refine .succ (w.graph g).frozen (hsame [] g .top) fun n hn inner hinner => ?_
    exact ih (h n hn inner hinner) (Nat.le_of_succ_le_succ hfuel) (Nat.le_of_succ_le_succ hfuel')
      fun place inner' hplace => hsame _ inner' (hplace.through hn hinner)

/-! ### Answers -/

theorem Alike.typeWithin_eq (h : w.Alike w' fuel fuel' g) (side : Side)
    (hw : w.WiredThroughout g around) (hn : n ∈ (w.graph g).nodes) (p : Nat) :
    w'.typeWithin side fuel' n p = w.typeWithin side fuel n p := by
  induction h generalizing n p around with
  | zero frozen graph_eq => rfl
  | succ frozen graph_eq inside ih =>
    rw [typeWithin, typeWithin]
    cases hinner : n.inner? with
    | none => rfl
    | some inner =>
      obtain ⟨frozen', hgraph⟩ := (inside n hn inner hinner).exists_graph_eq
      have hassociations : (w'.graph inner).associations side = (w.graph inner).associations side := by
        rw [hgraph]
        cases side <;> rfl
      simp only [hassociations]
      cases hp : ((w.graph inner).associations side).lookup p with
      | none => rfl
      | some q =>
        have hinside : w.WiredThroughout inner [n] := hw.within hn hinner
        have hmember := (hinside.top.wired side).member _
          (Graph.association_mem_uses side (List.mem_singleton_self n) (mem_of_lookup_eq_some hp))
        exact ih n hn inner hinner hinside hmember.1 q.index

theorem Alike.typeOf_eq (h : w.Alike w' w.depth w'.depth g) (hw : w.WiredThroughout g around) (side : Side)
    {e : External} (he : e ∈ (w.graph g).externals side) : w'.typeOf side e.port = w.typeOf side e.port := by
  have hmember := (hw.top.wired side).member _ (Graph.external_mem_uses around side he)
  exact h.typeWithin_eq side hw hmember.1 e.port.index

theorem countWithin_processor (w : Workspace) (fuel : Nat) {m : Node} (hm : m ∈ n.processors) :
    w.countWithin fuel m = 1 := by
  cases hkind : n.kind with
  | window p f width positive =>
    rw [Node.processors, hkind] at hm
    obtain rfl := List.mem_singleton.1 hm
    cases fuel <;> rfl
  | _ =>
    rw [Node.processors, hkind] at hm
    nomatch hm

theorem Alike.countWithin_eq (h : w.Alike w' fuel fuel' g) (hn : n ∈ (w.graph g).nodes) :
    w'.countWithin fuel' n = w.countWithin fuel n := by
  induction h generalizing n with
  | zero frozen graph_eq => rfl
  | succ frozen graph_eq inside ih =>
    rw [countWithin, countWithin, children, children]
    refine congrArg (fun counts => 1 + total counts) ?_
    cases hinner : n.inner? with
    | none =>
      refine List.map_congr_left fun m hm => ?_
      rw [countWithin_processor w' _ hm, countWithin_processor w _ hm]
    | some inner =>
      obtain ⟨frozen', hgraph⟩ := (inside n hn inner hinner).exists_graph_eq
      simp only [hgraph]
      exact List.map_congr_left fun m hm => ih n hn inner hinner hm

theorem Alike.count_eq (h : w.Alike w' (w.depth + 1) (w'.depth + 1) g) : w'.count g = w.count g := by
  obtain ⟨frozen, hgraph⟩ := h.exists_graph_eq
  rw [count, count, hgraph]
  exact congrArg total (List.map_congr_left fun n hn => h.countWithin_eq hn)

theorem Alike.validateWithin_eq (h : w.Alike w' fuel fuel' g) :
    w'.validateWithin fuel' g = w.validateWithin fuel g := by
  induction h with
  | zero frozen graph_eq => rfl
  | @succ fuel fuel' g frozen graph_eq inside ih =>
    rw [validateWithin, validateWithin, graph_eq]
    refine forM_congr fun n hn => ?_
    refine congrArg (checkFed (w.graph g) n >>= ·) (funext fun _ => ?_)
    cases hinner : n.inner? with
    | none => rfl
    | some inner =>
      obtain ⟨frozen', hgraph⟩ := (inside n hn inner hinner).exists_graph_eq
      simp only [hgraph, ih n hn inner hinner]
      rfl

theorem Alike.instances_eq (h : w.Alike w' fuel fuel' g) (supply : Supply) :
    instances w' s fuel' g supply = instances w s fuel g supply := by
  induction h generalizing supply with
  | zero frozen graph_eq => rfl
  | succ frozen graph_eq inside ih =>
    rw [instances, instances, graph_eq]
    refine mapM_congr fun n hn => ?_
    cases hinner : n.inner? with
    | none => rfl
    | some inner =>
      obtain ⟨frozen', hgraph⟩ := (inside n hn inner hinner).exists_graph_eq
      simp only [hgraph, ih n hn inner hinner]
      rfl

theorem mainModule_congr {parts : List Instance}
    (h : ∀ side, ∀ e ∈ (w.graph g).externals side, w'.typeOf side e.port = w.typeOf side e.port) :
    w'.mainModule s (w.graph g) parts = w.mainModule s (w.graph g) parts := by
  have hpipes (side : Side) (value fire : PipeId → Name) :
      (((w.graph g).externals side).flatMap fun e =>
        [Declaration.mk (value e.pipe) (w'.pipeType s side e), ⟨fire e.pipe, .scalar .boolean⟩]) =
      ((w.graph g).externals side).flatMap fun e =>
        [Declaration.mk (value e.pipe) (w.pipeType s side e), ⟨fire e.pipe, .scalar .boolean⟩] :=
    List.flatMap_congr fun e he => by rw [pipeType, pipeType, h side e he]
  have hinputs := hpipes .input (fun p => .pipeInValue p) fun p => .pipeInFire p
  have houtputs := hpipes .output (fun p => .pipeOutValue p) fun p => .pipeOutFire p
  simp only [Graph.externals] at hinputs houtputs
  rw [mainModule, mainModule, hinputs, houtputs]

theorem Alike.exists_compile (h : w.Alike w' w.depth w'.depth g) :
    (∃ m, w'.compile s g = .ok m) ↔ ∃ m, w.compile s g = .ok m := by
  obtain ⟨frozen, hgraph⟩ := h.exists_graph_eq
  have hsupply : pipeSupply (w'.graph g) = pipeSupply (w.graph g) := by
    rw [hgraph]
    rfl
  rw [exists_compile_iff, exists_compile_iff, h.validateWithin_eq, hsupply, h.instances_eq]

theorem Alike.compile_eq (h : w.Alike w' w.depth w'.depth g)
    (htype : ∀ side, ∀ e ∈ (w.graph g).externals side, w'.typeOf side e.port = w.typeOf side e.port) :
    w'.compile s g = w.compile s g := by
  obtain ⟨frozen, hgraph⟩ := h.exists_graph_eq
  have hsupply : pipeSupply (w'.graph g) = pipeSupply (w.graph g) := by
    rw [hgraph]
    rfl
  have hmain (parts : List Instance) :
      w'.mainModule s (w'.graph g) parts = w.mainModule s (w.graph g) parts := by
    rw [hgraph]
    exact mainModule_congr htype
  rw [compile, compile, validate, validate, h.validateWithin_eq, hsupply, h.instances_eq]
  simp only [hmain]

end Workspace
end StreamCheck.Network
