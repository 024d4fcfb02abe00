/-
Operators and comparators on wrapped numbers.

An operator that finds wrapped numbers in the register and on the stack does what it does on the
unbounded ones, wrapped (`Operator.apply_wrapTo`), and a comparator turns the same way
(`Comparator.apply_wrapTo`).  This fails for a comparator where one of its numbers is out of range,
and for a division also where the two ways of rounding part; `Commutes` says that it does not.
-/
import MatrixStack.Proofs.Machine.WellFormed
import MatrixStack.Proofs.Number.Wrapping
import MatrixStack.Proofs.Stack.Map

namespace MatrixStack

/-- The number of another type that the value wraps to. -/
def Number.wrapTo (t : NumberType) (n : Number) : Number := .of t n.value

/-- The divisor that a stack provides: one if it provides none or zero. -/
def Stack.divisor (s : Stack Number) : Int :=
  let b := (s.pop.1.map Number.value).getD 1
  if b = 0 then 1 else b

variable {t : NumberType}

/-! ## Numbers -/

namespace Number

theorem wrapTo_of_belongs {n : Number} (h : n.Belongs t) : n.wrapTo t = n := by
  obtain ⟨type, v⟩ := n
  obtain rfl : type = t := h.1
  exact of_of_holds h.2

theorem wrapTo_zero (t u : NumberType) : (zero u).wrapTo t = zero t :=
  of_of_holds (belongs_zero t).2

theorem wrapTo_one (t u : NumberType) : (one u).wrapTo t = one t :=
  of_of_holds (belongs_one t).2

/-- A number of a type, made an unbounded one and wrapped again. -/
theorem wrapTo_wrapTo_unbounded {n : Number} (h : n.Belongs t) :
    (n.wrapTo .unbounded).wrapTo t = n := wrapTo_of_belongs h

theorem eq_of_belongs_unbounded {n : Number} (h : n.Belongs .unbounded) :
    n = ⟨.unbounded, n.value⟩ := by
  obtain ⟨type, v⟩ := n
  obtain rfl : type = .unbounded := h.1
  rfl

theorem wrapTo_not {n : Number} (h : n.type = .unbounded) :
    (n.wrapTo t).not = n.not.wrapTo t := by
  obtain ⟨type, a⟩ := n
  obtain rfl : type = .unbounded := h
  show of t (Bits.not (t.wrap a)) = of t (Bits.not a)
  rw [of, NumberType.wrap_not, of]

theorem getD_map_wrapTo (o : Option Number) (n : Number) :
    (o.map (wrapTo t)).getD (n.wrapTo t) = (o.getD n).wrapTo t :=
  Option.getD_map ..

end Number

/-! ## Instructions -/

variable {register : Number} {s : Stack Number}

namespace Operator

/-- Wrapping respects the operator: it is no division, or one of numbers in range whose quotient is
the same for both ways of rounding. -/
def Commutes (t : NumberType) (register : Number) (s : Stack Number) (o : Operator) : Prop :=
  o = .divide → t.Holds register.value ∧ (∀ v, s.pop.1 = some v → t.Holds v.value) ∧
    ExactOrPositive register.value s.divisor

theorem wrapTo_neutral (t u : NumberType) (op : BinaryOp) :
    (neutral u op).wrapTo t = neutral t op := by
  cases op with
  | mul | div => exact Number.wrapTo_one t u
  | add | sub | or | and | xor => exact Number.wrapTo_zero t u

theorem compute_wrapTo {op : BinaryOp} {a b : Int}
    (hdiv : op = .div → t.Holds a ∧ t.Holds b ∧ ExactOrPositive a (if b = 0 then 1 else b)) :
    compute t op (.of t a) (.of t b) =
      (compute .unbounded op ⟨.unbounded, a⟩ ⟨.unbounded, b⟩).map (Number.wrapTo t) := by
  rw [compute_of_same, Number.of, Number.of, compute_of_same]
  refine congrArg (fun v => Except.ok (Number.mk t v)) ?_
  show t.wrap _ = t.wrap (op.onIntegers .unbounded a _)
  by_cases hop : op = .div
  · obtain ⟨ha, hb, hround⟩ := hdiv hop
    subst hop
    rw [NumberType.wrap_of_holds ha, NumberType.wrap_of_holds hb]
    simp only [true_and]
    rw [BinaryOp.onIntegers_div hround, BinaryOp.onIntegers_div hround]
  · simp only [hop, false_and, if_false]
    exact NumberType.wrap_onIntegers hop t t .unbounded a b

/-- An operator on wrapped numbers does what it does on the numbers, wrapped. -/
theorem operate_wrapTo {op : BinaryOp} (hr : register.Belongs .unbounded)
    (hs : s.All (·.Belongs .unbounded))
    (hdiv : op = .div → t.Holds register.value ∧ (∀ v, s.pop.1 = some v → t.Holds v.value) ∧
      ExactOrPositive register.value s.divisor) :
    apply.operate t (register.wrapTo t) (s.map (Number.wrapTo t)) op =
      ((apply.operate .unbounded register s op).1.map (Number.wrapTo t),
        (apply.operate .unbounded register s op).2.map (Number.wrapTo t)) := by
  rw [apply_operate, apply_operate, Stack.pop_fst_map, Stack.pop_snd_map,
    ← wrapTo_neutral t .unbounded, Number.getD_map_wrapTo]
  congr 1
  have hneutral : (neutral .unbounded op).Belongs .unbounded := by
    cases op <;> exact ⟨rfl, trivial⟩
  have hoperand := hs.getD_pop hneutral
  rw [Number.eq_of_belongs_unbounded hr, Number.eq_of_belongs_unbounded hoperand]
  apply compute_wrapTo
  intro hop
  obtain ⟨hregister, htop, hround⟩ := hdiv hop
  subst hop
  cases hpop : s.pop.1 with
  | none =>
    rw [Stack.divisor, hpop] at hround
    exact ⟨hregister, (Number.belongs_one t).2, hround⟩
  | some v =>
    rw [Stack.divisor, hpop] at hround
    exact ⟨hregister, htop v hpop, hround⟩

theorem apply_wrapTo {o : Operator} (hr : register.Belongs .unbounded)
    (hs : s.All (·.Belongs .unbounded)) (ho : o.Commutes t register s) :
    o.apply t (register.wrapTo t) (s.map (Number.wrapTo t)) =
      ((o.apply .unbounded register s).1.map (Number.wrapTo t),
        (o.apply .unbounded register s).2.map (Number.wrapTo t)) := by
  cases o with
  | push =>
    show (Except.ok _, (s.map _).push _) = _
    rw [Stack.push_map]
    rfl
  | pop =>
    rw [apply_pop, apply_pop, Stack.pop_fst_map, Stack.pop_snd_map,
      ← Number.wrapTo_zero t .unbounded, Number.getD_map_wrapTo]
    rfl
  | duplicate =>
    rw [apply_duplicate, apply_duplicate, Stack.pop_fst_map, Stack.pop_snd_map]
    refine Prod.ext rfl ?_
    cases s.pop.1 with
    | none =>
      show (s.pop.2.map _).push (Number.zero t) = (s.pop.2.push (Number.zero .unbounded)).map _
      rw [← Number.wrapTo_zero t .unbounded, Stack.push_map]
    | some top =>
      show ((s.pop.2.map _).push (top.wrapTo t)).push (top.wrapTo t) =
        ((s.pop.2.push top).push top).map _
      rw [Stack.push_map, Stack.push_map]
  | not =>
    show (Except.ok _, _) = (Except.ok _, _)
    rw [Number.wrapTo_not hr.1]
    rfl
  | add => exact operate_wrapTo hr hs nofun
  | subtract => exact operate_wrapTo hr hs nofun
  | multiply => exact operate_wrapTo hr hs nofun
  | divide => exact operate_wrapTo hr hs fun _ => ho rfl
  | or => exact operate_wrapTo hr hs nofun
  | and => exact operate_wrapTo hr hs nofun
  | xor => exact operate_wrapTo hr hs nofun

end Operator

namespace Comparator

/-- The numbers that the comparator looks at are in range. -/
def Commutes (t : NumberType) (register : Number) (s : Stack Number) (c : Comparator) : Prop :=
  t.Holds register.value ∧ (c = .stack → ∀ v, s.pop.1 = some v → t.Holds v.value)

theorem turn_wrapTo {other : Number} (hr : register.Belongs .unbounded)
    (ho : other.Belongs .unbounded) (hregister : t.Holds register.value)
    (hother : t.Holds other.value) (d : Direction) :
    turn (register.wrapTo t) (other.wrapTo t) d = turn register other d := by
  rw [Number.wrapTo, Number.wrapTo, Number.of_of_holds hregister, Number.of_of_holds hother,
    Number.eq_of_belongs_unbounded hr, Number.eq_of_belongs_unbounded ho, turn_of_same,
    turn_of_same]

theorem apply_wrapTo {c : Comparator} (hr : register.Belongs .unbounded)
    (hs : s.All (·.Belongs .unbounded)) (hc : c.Commutes t register s) (d : Direction) :
    c.apply t (register.wrapTo t) (s.map (Number.wrapTo t)) d =
      ((c.apply .unbounded register s d).1,
        (c.apply .unbounded register s d).2.map (Number.wrapTo t)) := by
  have hzero : t.Holds (Number.zero .unbounded).value := (Number.belongs_zero t).2
  cases c with
  | zero =>
    show (turn _ (.zero t) d, _) = _
    rw [← Number.wrapTo_zero t .unbounded,
      turn_wrapTo hr (Number.belongs_zero _) hc.1 hzero]
    rfl
  | stack =>
    have hother := hs.getD_pop (Number.belongs_zero .unbounded)
    rw [apply_stack, apply_stack, Stack.pop_fst_map, Stack.pop_snd_map,
      ← Number.wrapTo_zero t .unbounded, Number.getD_map_wrapTo,
      turn_wrapTo hr hother hc.1]
    cases hpop : s.pop.1 with
    | none => exact hzero
    | some v => exact hc.2 rfl v hpop

end Comparator

end MatrixStack
