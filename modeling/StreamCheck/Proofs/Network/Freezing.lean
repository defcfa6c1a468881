import StreamCheck.Proofs.Network.Alike
import StreamCheck.Proofs.Network.Wires
import StreamCheck.Subject.Basic

/-! Freezing: what is compiled from a graph does not depend on which graphs are frozen. -/

namespace StreamCheck.Network
namespace Workspace
open Smv

structure SameButFrozen (w w' : Workspace) : Prop where
  length_eq : w'.graphs.length = w.graphs.length
  graph_eq : ∀ g, ∃ frozen, w'.graph g = { w.graph g with frozen := frozen }

variable {w w' : Workspace} {s : Sizes}

theorem SameButFrozen.refl (w : Workspace) : w.SameButFrozen w := ⟨rfl, fun _ => ⟨_, rfl⟩⟩

theorem SameButFrozen.mark (h : w.SameButFrozen w') (g : GraphId) :
    w.SameButFrozen (w'.modify g fun graph => { graph with frozen := true }) := by
  refine ⟨?_, fun i => ?_⟩
  · rw [length_modify]
    exact h.length_eq
  · refine forall_graph_modify (w := w') (P := fun i graph => ∃ frozen, graph = { w.graph i with frozen := frozen })
      h.graph_eq ?_ i
    rintro ⟨frozen, heq⟩
    exact ⟨true, by rw [heq]⟩

theorem SameButFrozen.freezeWithin (h : w.SameButFrozen w') (fuel : Nat) (g : GraphId) :
    w.SameButFrozen (freezeWithin fuel g w') :=
  freezeWithin_induction (fun _ g' h' => h'.mark g') fuel g h

theorem SameButFrozen.freeze (w : Workspace) (g : GraphId) : w.SameButFrozen (w.freeze g) :=
  (SameButFrozen.refl w).freezeWithin w.depth g

theorem SameButFrozen.nodes_eq (h : w.SameButFrozen w') (g : GraphId) :
    (w'.graph g).nodes = (w.graph g).nodes := by
  obtain ⟨frozen, hgraph⟩ := h.graph_eq g
  rw [hgraph]

theorem SameButFrozen.typeOf_eq (h : w.SameButFrozen w') (side : Side) (p : Port) :
    w'.typeOf side p = w.typeOf side p := by
  refine typeOf_congr h.length_eq (fun g side => ?_) side p
  obtain ⟨frozen, hgraph⟩ := h.graph_eq g
  rw [hgraph]
  cases side <;> rfl

theorem SameButFrozen.alike (h : w.SameButFrozen w') (fuel : Nat) (g : GraphId) : w.Alike w' fuel fuel g := by
  induction fuel generalizing g with
  | zero =>
    obtain ⟨frozen, hgraph⟩ := h.graph_eq g
    exact .zero frozen hgraph
  | succ fuel ih =>
    obtain ⟨frozen, hgraph⟩ := h.graph_eq g
    exact .succ frozen hgraph fun _ _ inner _ => ih inner

theorem SameButFrozen.depth_eq (h : w.SameButFrozen w') : w'.depth = w.depth := by
  rw [depth, depth, h.length_eq]

theorem SameButFrozen.compile_eq (h : w.SameButFrozen w') (g : GraphId) : w'.compile s g = w.compile s g := by
  refine Alike.compile_eq ?_ fun side e _ => h.typeOf_eq side e.port
  rw [h.depth_eq]
  exact h.alike _ g

theorem SameButFrozen.count_eq (h : w.SameButFrozen w') (g : GraphId) : w'.count g = w.count g := by
  refine Alike.count_eq ?_
  rw [h.depth_eq]
  exact h.alike _ g

end Workspace
end StreamCheck.Network

namespace StreamCheck.CompiledGraph
open Network

theorem compile_freeze (w : Workspace) (name : String) (s : Sizes) (g : GraphId) (shape : Option Int) :
    compile (w.freeze g) name s g shape = compile w name s g shape := by
  have hsame := Workspace.SameButFrozen.freeze w g
  rw [compile, compile, hsame.compile_eq, hsame.count_eq]

theorem exists_compile {w : Workspace} {s : Sizes} {g : GraphId} {m : Smv.Model} (h : w.compile s g = .ok m)
    (name : String) (shape : Option Int) :
    ∃ compiled, compile w name s g shape = .ok compiled ∧ compiled.graph = g ∧ compiled.model = m := by
  rw [compile, h]
  exact ⟨_, rfl, rfl, rfl⟩

end StreamCheck.CompiledGraph
