import StreamCheck.Network.Fault
import StreamCheck.Smv.Module

/-! The circuit of a node that is no group: a queue for each input, and the behaviour of its kind on
the events that the queues offer. A node fires when every input has an event to offer. -/

namespace StreamCheck.Network
open Smv

structure Sizes where
  domain : Int
  queue : Int
deriving DecidableEq, Repr, Inhabited

def Sizes.scalar (s : Sizes) : PortType → Scalar
  | .integer => .upTo (s.domain - 1)
  | .boolean => .boolean

/-- What a module declares besides its parameters. -/
structure Circuit where
  declarations : List Declaration := []
  defines : List (Name × Expr) := []
  assigns : List Assign := []
deriving DecidableEq, Repr, Inhabited

namespace Circuit

def append (a b : Circuit) : Circuit :=
  ⟨a.declarations ++ b.declarations, a.defines ++ b.defines, a.assigns ++ b.assigns⟩

instance : Append Circuit := ⟨append⟩

def join (cs : List Circuit) : Circuit := cs.foldr append {}

def starts (c : Cell) (e : Expr) : Assign := ⟨.first, c, .value e⟩

def becomes (c : Cell) (u : Update) : Assign := ⟨.after, c, u⟩

end Circuit

/-! ### Queues -/

namespace Queue

def flag (j i : Nat) : Expr := .ownSlot (.queueFlags j) i

def value (j i : Nat) : Expr := .ownSlot (.queueValues j) i

def ready : Expr := .own .ready

def arrives (j : Nat) : Expr := .own (.inFire j)

def arriving (j : Nat) : Expr := .own (.inValue j)

def front (j : Nat) : Expr := .own (.front j)

def both (a b : Expr) : Expr := .binary .and a b

/-- The next flag of a slot: firing without an arrival moves the queue up by one slot, and an arrival
without firing takes the first free slot. -/
def nextFlag (q j i : Nat) : Update :=
  let behind := if i + 1 < q then flag j (i + 1) else .bool false
  let ahead := if 0 < i then flag j (i - 1) else .bool true
  .cases
    [(both ready (.not (arrives j)), behind),
     (both (.not ready) (arrives j), .binary .or (flag j i) ahead),
     (.bool true, flag j i)]

def nextValue (q j i : Nat) : Update :=
  let last := Expr.choose (flag j i) (arriving j) (value j i)
  let shifted := if i + 1 < q then value j (i + 1) else value j i
  let onBoth :=
    if i + 1 < q then .choose (flag j (i + 1)) (value j (i + 1)) (.paren last) else last
  let free := both (arrives j) (.not (flag j i))
  .cases
    [(both ready (arrives j), onBoth),
     (both ready (.not (arrives j)), shifted),
     (if 0 < i then both free (flag j (i - 1)) else free, arriving j),
     (.bool true, value j i)]

def blank : PortType → Expr
  | .boolean => .bool false
  | .integer => .num 0

def slotAssigns (q j : Nat) (type : PortType) (i : Nat) : List Assign :=
  let flagCell : Cell := ⟨.queueFlags j, some i⟩
  let valueCell : Cell := ⟨.queueValues j, some i⟩
  [Circuit.starts flagCell (.bool false),
   Circuit.starts valueCell (blank type),
   Circuit.becomes flagCell (nextFlag q j i),
   Circuit.becomes valueCell (nextValue q j i)]

def circuit (s : Sizes) (j : Nat) (type : PortType) : Circuit where
  declarations :=
    [⟨.queueValues j, .array s.queue (s.scalar type)⟩,
     ⟨.queueFlags j, .array s.queue .boolean⟩]
  defines :=
    [(.available j, .binary .or (flag j 0) (arrives j)),
     (.front j, .choose (flag j 0) (value j 0) (arriving j))]
  assigns := (List.range s.queue.toNat).flatMap (slotAssigns s.queue.toNat j type)

def circuits (s : Sizes) (types : List PortType) : Circuit :=
  Circuit.join (types.zipIdx.map fun (t, j) => circuit s j t) ++
    { defines := [(.ready, Expr.conj ((List.range types.length).map fun j =>
        Expr.own (.available j)))] }

end Queue

/-! ### Behaviour -/

namespace Circuit
open Queue

def output (p : Nat) (value fire : Expr) : List (Name × Expr) :=
  [(.outValue p, value), (.outFire p, fire)]

def counter : Expr := .own .counter

def counterCell : Cell := ⟨.counter, none⟩

def countUpTo (last : Int) : Circuit where
  declarations := [⟨.counter, .scalar (.upTo last)⟩]
  assigns :=
    [starts counterCell (.num 0),
     becomes counterCell (.value (.choose (both ready (.binary .lt counter (.num last)))
       (.binary .add counter (.num 1)) counter))]

def countModulo (limit : Int) : Circuit where
  declarations := [⟨.counter, .scalar (.upTo (limit - 1))⟩]
  assigns :=
    [starts counterCell (.num 0),
     becomes counterCell (.value (.choose ready
       (.binary .mod (.paren (.binary .add counter (.num 1))) (.num limit)) counter))]

def readyAt (n : Int) : Expr := both ready (.binary .eq counter (.num n))

def cumulate (s : Sizes) (f : Fold) : Circuit where
  declarations :=
    [⟨.accumulator, .scalar (s.scalar .integer)⟩, ⟨.started, .scalar .boolean⟩]
  defines :=
    output 0 (.choose (.own .started) (f.combine s.domain (.own .accumulator) (front 0)) (front 0))
      ready
  assigns :=
    [starts ⟨.accumulator, none⟩ (.num 0),
     starts ⟨.started, none⟩ (.bool false),
     becomes ⟨.accumulator, none⟩
       (.value (.choose ready (.own (.outValue 0)) (.own .accumulator))),
     becomes ⟨.started, none⟩ (.value (.binary .or (.own .started) ready))]

def windowSlot (i : Nat) : Expr := .ownSlot .window i

/-- The next value of a slot of a window that keeps `kept` events: a full window moves up by one slot,
and until then each event goes to the slot of its rank. -/
def nextWindowSlot (kept i : Nat) : Update :=
  .cases
    [(readyAt kept, if i + 1 < kept then windowSlot (i + 1) else front 0),
     (readyAt i, front 0),
     (.bool true, windowSlot i)]

def window (s : Sizes) (f : Fold) (width : Nat) : Circuit :=
  if width = 1 then { defines := output 0 (front 0) ready }
  else
    let kept := width - 1
    let operands := (List.range (kept - 1)).map (fun i => windowSlot (i + 1)) ++ [front 0]
    let slots : Circuit :=
      { assigns := (List.range kept).flatMap fun i =>
          [starts ⟨.window, some i⟩ (.num 0),
           becomes ⟨.window, some i⟩ (nextWindowSlot kept i)] }
    { declarations := [⟨.window, .array kept (s.scalar .integer)⟩] } ++ countUpTo kept ++ slots ++
      { defines := output 0 (operands.foldl (f.combine s.domain) (windowSlot 0)) (readyAt kept) }

def literal (s : Sizes) : Literal → Except Fault Expr
  | .truth b => .ok (.bool b)
  | .number n =>
    if 0 ≤ n ∧ n < s.domain then .ok (.num n) else .error (.constantOutside n s.domain)

def behaviour (s : Sizes) : Kind → Except Fault Circuit
  | .passthrough _ => .ok { defines := output 0 (front 0) ready }
  | .fork n _ _ => .ok { defines := (List.range n).flatMap fun p => output p (front 0) ready }
  | .constant v _ => (literal s v).map fun e => { defines := output 0 e ready }
  | .apply op _ => .ok { defines := output 0 (op.combine s.domain front) ready }
  | .filter _ => .ok { defines := output 0 (front 0) (both ready (front 1)) }
  | .trim n _ => .ok (countUpTo n ++ { defines := output 0 (front 0) (readyAt n) })
  | .decimate n _ _ => .ok (countModulo n ++ { defines := output 0 (front 0) (readyAt 0) })
  | .cumulate f => .ok (cumulate s f)
  | .window _ f width _ => .ok (window s f width)
  | k => .error (.noBehaviour k)

def ofKind (s : Sizes) (k : Kind) : Except Fault Circuit :=
  (behaviour s k).map (Queue.circuits s k.inputs ++ ·)

end Circuit

end StreamCheck.Network
