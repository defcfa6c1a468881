import StreamCheck.Smv.State

/-! Values of expressions: truth of the connectives, and cases tried from the first on. -/

namespace StreamCheck.Smv

namespace Expr
variable {s : State}

@[simp] theorem isTrue_eval_bool (b : Bool) : ((bool b).eval s).isTrue = b := rfl

@[simp] theorem isTrue_eval_not (e : Expr) : ((not e).eval s).isTrue = !(e.eval s).isTrue := rfl

@[simp] theorem isTrue_eval_and (a b : Expr) :
    ((binary .and a b).eval s).isTrue = ((a.eval s).isTrue && (b.eval s).isTrue) := rfl

@[simp] theorem eval_or (a b : Expr) :
    (binary .or a b).eval s = .truth ((a.eval s).isTrue || (b.eval s).isTrue) := rfl

@[simp] theorem eval_choose (c a b : Expr) :
    (choose c a b).eval s = if (c.eval s).isTrue then a.eval s else b.eval s := rfl

@[simp] theorem eval_paren (e : Expr) : (paren e).eval s = e.eval s := rfl

theorem isTrue_eval_foldl_and (es : List Expr) (e : Expr) :
    ((es.foldl (binary .and) e).eval s).isTrue = ((e :: es).all fun x => (x.eval s).isTrue) := by
  induction es generalizing e with
  | nil => simp
  | cons x xs ih => simp [ih, Bool.and_assoc]

theorem isTrue_eval_conj (es : List Expr) :
    ((conj es).eval s).isTrue = es.all fun e => (e.eval s).isTrue := by
  cases es with
  | nil => rfl
  | cons e es => exact isTrue_eval_foldl_and es e

end Expr

namespace Update
variable {s : State}

@[simp] theorem eval_value (e : Expr) : (value e).eval s = e.eval s := rfl

@[simp] theorem eval_cases_cons (c e : Expr) (bs : List (Expr × Expr)) :
    (cases ((c, e) :: bs)).eval s =
      if (c.eval s).isTrue then e.eval s else (cases bs).eval s := by
  cases h : (c.eval s).isTrue <;> simp [eval, chosen?, h]

end Update

end StreamCheck.Smv
