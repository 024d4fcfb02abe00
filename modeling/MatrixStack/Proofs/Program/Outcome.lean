/-
Outcomes of composed readings.

A reading ends with a result or with its first error.  These lemmas take a composed reading that
has succeeded apart into the parts that have, and say which errors a composed reading avoids because
its parts do.
-/
import Mathlib.Data.List.Forall2

namespace MatrixStack
namespace Outcome

variable {ε ε' α β σ : Type}

theorem exists_of_isOk {x : Except ε α} (h : x.isOk = true) : ∃ a, x = .ok a := by
  cases x with
  | error e => cases h
  | ok a => exact ⟨a, rfl⟩

theorem ok_bind (a : α) (f : α → Except ε β) : (.ok a : Except ε α) >>= f = f a := rfl

theorem bind_eq_ok_iff {x : Except ε α} {f : α → Except ε β} {b : β} :
    x >>= f = .ok b ↔ ∃ a, x = .ok a ∧ f a = .ok b := by
  cases x with
  | error e =>
    constructor
    · intro h
      cases h
    · rintro ⟨a, h, -⟩
      cases h
  | ok a =>
    constructor
    · intro h
      exact ⟨a, rfl, h⟩
    · rintro ⟨a', h, hf⟩
      cases h
      exact hf

theorem map_eq_ok_iff {x : Except ε α} {f : α → β} {b : β} :
    x.map f = .ok b ↔ ∃ a, x = .ok a ∧ f a = b := by
  cases x with
  | error e => simp [Except.map]
  | ok a => simp [Except.map]

theorem mapError_eq_ok_iff {x : Except ε α} {f : ε → ε'} {a : α} :
    x.mapError f = .ok a ↔ x = .ok a := by
  cases x with
  | error e => simp [Except.mapError]
  | ok a => simp [Except.mapError]

theorem toOption_eq_some_iff {x : Except ε α} {a : α} : x.toOption = some a ↔ x = .ok a := by
  cases x with
  | error e => simp [Except.toOption]
  | ok a' => simp [Except.toOption]

theorem mapM_eq_ok_iff {f : α → Except ε β} {l : List α} {bs : List β} :
    l.mapM f = .ok bs ↔ List.Forall₂ (fun a b => f a = .ok b) l bs := by
  induction l generalizing bs with
  | nil =>
    rw [List.mapM_nil, List.forall₂_nil_left_iff]
    constructor
    · intro h
      cases h
      rfl
    · rintro rfl
      rfl
  | cons a rest ih =>
    rw [List.mapM_cons, bind_eq_ok_iff, List.forall₂_cons_left_iff]
    constructor
    · rintro ⟨b, hb, h⟩
      obtain ⟨bs', hbs, heq⟩ := bind_eq_ok_iff.mp h
      cases heq
      exact ⟨b, bs', hb, ih.mp hbs, rfl⟩
    · rintro ⟨b, bs', hb, hrest, rfl⟩
      exact ⟨b, hb, bind_eq_ok_iff.mpr ⟨bs', ih.mpr hrest, rfl⟩⟩

theorem mapM_cons_eq_ok_iff {f : α → Except ε β} {a : α} {rest : List α} {bs : List β} :
    (a :: rest).mapM f = .ok bs ↔ ∃ b bs', f a = .ok b ∧ rest.mapM f = .ok bs' ∧ bs = b :: bs' := by
  simp only [mapM_eq_ok_iff, List.forall₂_cons_left_iff]

theorem exists_mapM_eq_ok {f : α → Except ε β} {l : List α} (h : ∀ a ∈ l, ∃ b, f a = .ok b) :
    ∃ bs, l.mapM f = .ok bs := by
  induction l with
  | nil => exact ⟨[], rfl⟩
  | cons a rest ih =>
    obtain ⟨b, hb⟩ := h a (List.mem_cons_self ..)
    obtain ⟨bs, hbs⟩ := ih fun a' ha' => h a' (List.mem_cons_of_mem a ha')
    exact ⟨b :: bs, mapM_cons_eq_ok_iff.mpr ⟨b, bs, hb, hbs, rfl⟩⟩

theorem mem_of_mapM_eq_ok {f : α → Except ε β} {l : List α} {bs : List β} {a : α} {b : β}
    (h : l.mapM f = .ok bs) (ha : a ∈ l) (hb : f a = .ok b) : b ∈ bs := by
  induction l generalizing bs with
  | nil => exact absurd ha List.not_mem_nil
  | cons a' rest ih =>
    obtain ⟨b', bs', hb', hrest, rfl⟩ := mapM_cons_eq_ok_iff.mp h
    rcases List.mem_cons.mp ha with rfl | hmem
    · obtain rfl : b = b' := Except.ok.inj (hb.symm.trans hb')
      exact List.mem_cons_self ..
    · exact List.mem_cons_of_mem b' (ih hrest hmem)

theorem mapM_map_eq_ok {γ : Type} {f : α → Except ε β} {g : α → Except ε γ} {r : β → γ}
    {l : List α} {bs : List β} (hfg : ∀ a b, f a = .ok b → g a = .ok (r b))
    (h : l.mapM f = .ok bs) : l.mapM g = .ok (bs.map r) := by
  rw [mapM_eq_ok_iff] at h ⊢
  rw [List.forall₂_map_right_iff]
  exact h.imp hfg

/-- Where every step asks for one thing more, the traversal asks for it of all of them. -/
theorem mapM_eq_ok_iff_and {f g : α → Except ε β} {p : α → Prop} {l : List α} {bs : List β}
    (h : ∀ a ∈ l, ∀ b, f a = .ok b ↔ g a = .ok b ∧ p a) :
    l.mapM f = .ok bs ↔ l.mapM g = .ok bs ∧ ∀ a ∈ l, p a := by
  induction l generalizing bs with
  | nil =>
    rw [List.mapM_nil, List.mapM_nil]
    exact (and_iff_left fun a ha => absurd ha List.not_mem_nil).symm
  | cons a rest ih =>
    have ha := h a (List.mem_cons_self ..)
    have hrest (bs' : List β) : rest.mapM f = .ok bs' ↔ rest.mapM g = .ok bs' ∧ ∀ a ∈ rest, p a :=
      ih fun a' ha' => h a' (List.mem_cons_of_mem a ha')
    simp only [mapM_cons_eq_ok_iff, ha, hrest, List.forall_mem_cons]
    constructor
    · rintro ⟨b, bs', ⟨hb, hp⟩, ⟨hbs, hps⟩, rfl⟩
      exact ⟨⟨b, bs', hb, hbs, rfl⟩, hp, hps⟩
    · rintro ⟨⟨b, bs', hb, hbs, rfl⟩, hp, hps⟩
      exact ⟨b, bs', ⟨hb, hp⟩, ⟨hbs, hps⟩, rfl⟩

/-- What a selection of the steps gives is the selection of what all steps give. -/
theorem mapM_filter_eq_ok {f : α → Except ε β} {p : α → Bool} {q : β → Bool} {l : List α}
    {bs : List β} (hpq : ∀ a b, f a = .ok b → q b = p a) (h : l.mapM f = .ok bs) :
    (l.filter p).mapM f = .ok (bs.filter q) := by
  rw [mapM_eq_ok_iff] at h ⊢
  induction h with
  | nil => exact .nil
  | @cons a b rest bs hb _ ih =>
    rw [List.filter_cons, List.filter_cons, hpq a b hb]
    split
    · exact .cons hb ih
    · exact ih

theorem exists_of_mapM_eq_ok {f : α → Except ε β} {l : List α} {bs : List β} {a : α}
    (h : l.mapM f = .ok bs) (ha : a ∈ l) : ∃ b, f a = .ok b := by
  have hall := mapM_eq_ok_iff.mp h
  clear h
  induction hall with
  | nil => exact absurd ha List.not_mem_nil
  | cons hb _ ih =>
    rcases List.mem_cons.mp ha with rfl | hrest
    · exact ⟨_, hb⟩
    · exact ih hrest

theorem exists_mem_of_mapM_eq_ok {f : α → Except ε β} {l : List α} {bs : List β} {b : β}
    (h : l.mapM f = .ok bs) (hb : b ∈ bs) : ∃ a ∈ l, f a = .ok b := by
  have hall := mapM_eq_ok_iff.mp h
  clear h
  induction hall with
  | nil => exact absurd hb List.not_mem_nil
  | @cons a b' rest bs' ha _ ih =>
    rcases List.mem_cons.mp hb with rfl | hrest
    · exact ⟨a, List.mem_cons_self .., ha⟩
    · obtain ⟨a', hmem, ha'⟩ := ih hrest
      exact ⟨a', List.mem_cons_of_mem a hmem, ha'⟩

theorem getElem?_of_mapM_eq_ok {f : α → Except ε β} {l : List α} {bs : List β}
    (h : l.mapM f = .ok bs) (i : Nat) : bs[i]? = l[i]?.bind fun a => (f a).toOption := by
  have hall := mapM_eq_ok_iff.mp h
  clear h
  induction hall generalizing i with
  | nil => rfl
  | @cons a b rest bs hb _ ih =>
    cases i with
    | zero =>
      rw [List.getElem?_cons_zero, List.getElem?_cons_zero, Option.bind_some, hb]
      rfl
    | succ i => exact ih i

theorem foldlM_cons_eq_ok_iff {f : σ → α → Except ε σ} {a : α} {rest : List α} {s t : σ} :
    (a :: rest).foldlM f s = .ok t ↔ ∃ u, f s a = .ok u ∧ rest.foldlM f u = .ok t := by
  rw [List.foldlM_cons, bind_eq_ok_iff]

/-! ## Errors that do not occur -/

/-- The outcome is not one of the bad errors. -/
def Avoids (bad : ε → Prop) (x : Except ε α) : Prop := ∀ e, x = .error e → ¬bad e

variable {bad : ε → Prop}

theorem avoids_ok (bad : ε → Prop) (a : α) : Avoids bad (.ok a) := by
  intro e h
  cases h

theorem avoids_error {e : ε} (he : ¬bad e) : Avoids bad (.error e : Except ε α) := by
  intro e' h
  cases h
  exact he

theorem Avoids.mono {worse : ε → Prop} {x : Except ε α} (hx : Avoids bad x)
    (hbad : ∀ e, worse e → bad e) : Avoids worse x := by
  intro e he hworse
  exact hx e he (hbad e hworse)

theorem Avoids.bind {x : Except ε α} {f : α → Except ε β} (hx : Avoids bad x)
    (hf : ∀ a, x = .ok a → Avoids bad (f a)) : Avoids bad (x >>= f) := by
  cases x with
  | error e => exact avoids_error (hx e rfl)
  | ok a => exact hf a rfl

theorem Avoids.map {x : Except ε α} (hx : Avoids bad x) (f : α → β) : Avoids bad (x.map f) := by
  cases x with
  | error e => exact avoids_error (hx e rfl)
  | ok a => exact avoids_ok bad (f a)

theorem avoids_mapError {f : ε' → ε} (hf : ∀ e, ¬bad (f e)) (x : Except ε' α) :
    Avoids bad (x.mapError f) := by
  cases x with
  | error e => exact avoids_error (hf e)
  | ok a => exact avoids_ok bad a

theorem avoids_mapM {f : α → Except ε β} (hf : ∀ a, Avoids bad (f a)) (l : List α) :
    Avoids bad (l.mapM f) := by
  induction l with
  | nil => exact avoids_ok bad []
  | cons a rest ih =>
    rw [List.mapM_cons]
    refine (hf a).bind fun b _ => ?_
    exact ih.bind fun bs _ => avoids_ok bad (b :: bs)

theorem avoids_foldlM {f : σ → α → Except ε σ} (hf : ∀ s a, Avoids bad (f s a)) (l : List α)
    (s : σ) : Avoids bad (l.foldlM f s) := by
  induction l generalizing s with
  | nil => exact avoids_ok bad s
  | cons a rest ih =>
    rw [List.foldlM_cons]
    exact (hf s a).bind fun t _ => ih t

/-! ## First errors -/

theorem exists_ok_iff {x : Except ε α} : (∃ a, x = .ok a) ↔ ∀ e, x ≠ .error e := by
  cases x <;> simp

/-- An outcome with one possible error has it where there is no result. -/
theorem eq_error_iff {x : Except ε α} {e e' : ε} (h : ∀ e, x = .error e → e = e') :
    x = .error e ↔ (∀ a, x ≠ .ok a) ∧ e = e' := by
  cases x with
  | error e₀ =>
    obtain rfl := h e₀ rfl
    simp [eq_comm]
  | ok a => simp

theorem bind_eq_error_iff {x : Except ε α} {f : α → Except ε β} {e : ε} :
    x >>= f = .error e ↔ x = .error e ∨ ∃ a, x = .ok a ∧ f a = .error e := by
  cases x with
  | error e₀ =>
    show Except.error e₀ = .error e ↔ _
    simp
  | ok a =>
    show f a = .error e ↔ _
    simp

theorem map_eq_error_iff {x : Except ε α} {f : α → β} {e : ε} :
    x.map f = .error e ↔ x = .error e := by
  cases x <;> simp [Except.map]

/-- The error of the first step that is wrong, where a step is judged with those before it. -/
def FirstError (wrong : List α → α → ε → Prop) (l : List α) (e : ε) : Prop :=
  ∃ before a after, l = before ++ a :: after ∧ wrong before a e ∧
    ∀ b x c e', before = b ++ x :: c → ¬wrong b x e'

section

variable {wrong wrong' : List α → α → ε → Prop} {a : α} {l : List α} {e : ε}

theorem not_firstError_nil : ¬FirstError wrong [] e := by
  rintro ⟨before, a, after, h, -⟩
  exact List.append_ne_nil_of_right_ne_nil before (List.cons_ne_nil a after) h.symm

theorem firstError_cons_iff :
    FirstError wrong (a :: l) e ↔ wrong [] a e ∨
      (∀ e', ¬wrong [] a e') ∧ FirstError (fun before => wrong (a :: before)) l e := by
  constructor
  · rintro ⟨before, a', after, heq, hwrong, hfirst⟩
    cases before with
    | nil =>
      cases heq
      exact .inl hwrong
    | cons b bs =>
      cases heq
      refine .inr ⟨fun e' => hfirst [] a bs e' rfl, bs, a', after, rfl, hwrong, ?_⟩
      intro b x c e' heq
      exact hfirst (a :: b) x c e' (congrArg (a :: ·) heq)
  · rintro (hwrong | ⟨hnot, before, a', after, rfl, hwrong, hfirst⟩)
    · refine ⟨[], a, l, rfl, hwrong, fun b x c e' heq => ?_⟩
      exact absurd heq.symm (List.append_ne_nil_of_right_ne_nil b (List.cons_ne_nil x c))
    · refine ⟨a :: before, a', after, rfl, hwrong, fun b x c e' heq => ?_⟩
      cases b with
      | nil =>
        cases heq
        exact hnot e'
      | cons b bs =>
        cases heq
        exact hfirst bs x c e' rfl

theorem firstError_cons_of_wrong {e' : ε} (h : ∀ e, wrong [] a e ↔ e = e') :
    FirstError wrong (a :: l) e ↔ e = e' := by
  rw [firstError_cons_iff, h]
  exact or_iff_left fun hno => hno.1 e' ((h e').mpr rfl)

theorem firstError_cons_of_right (h : ∀ e, ¬wrong [] a e) :
    FirstError wrong (a :: l) e ↔ FirstError (fun before => wrong (a :: before)) l e := by
  rw [firstError_cons_iff]
  exact ⟨fun hor => (hor.resolve_left (h e)).2, fun hrest => .inr ⟨h, hrest⟩⟩

theorem FirstError.congr (h : ∀ before, ∀ a ∈ l, ∀ e, wrong before a e ↔ wrong' before a e) :
    FirstError wrong l e ↔ FirstError wrong' l e := by
  induction l generalizing wrong wrong' with
  | nil => exact iff_of_false not_firstError_nil not_firstError_nil
  | cons a l ih =>
    have hhead := h [] a (List.mem_cons_self ..)
    have htail : FirstError (fun before => wrong (a :: before)) l e ↔
        FirstError (fun before => wrong' (a :: before)) l e :=
      ih fun before b hb => h (a :: before) b (List.mem_cons_of_mem a hb)
    rw [firstError_cons_iff, firstError_cons_iff, htail]
    simp only [hhead]

/-- Where steps are judged on their own, some error is the first as soon as some step is wrong. -/
theorem exists_firstError_iff {wrong : α → ε → Prop} :
    (∃ e, FirstError (fun _ => wrong) l e) ↔ ∃ a ∈ l, ∃ e, wrong a e := by
  induction l with
  | nil => simp [not_firstError_nil]
  | cons a l ih =>
    simp only [firstError_cons_iff, List.exists_mem_cons_iff, ← ih]
    by_cases ha : ∃ e, wrong a e
    · obtain ⟨e, he⟩ := ha
      exact iff_of_true ⟨e, .inl he⟩ (.inl ⟨e, he⟩)
    · have hnot : ∀ e, ¬wrong a e := fun e he => ha ⟨e, he⟩
      simp [hnot]

theorem FirstError.exists (h : FirstError wrong l e) : ∃ before, ∃ a ∈ l, wrong before a e := by
  obtain ⟨before, a, after, rfl, hwrong, -⟩ := h
  exact ⟨before, a, List.mem_append_right _ (List.mem_cons_self ..), hwrong⟩

theorem exists_firstError_of_wrong {before after : List α} (h : wrong before a e) :
    ∃ e', FirstError wrong (before ++ a :: after) e' := by
  induction before generalizing wrong with
  | nil => exact ⟨e, firstError_cons_iff.mpr (.inl h)⟩
  | cons b before ih =>
    by_cases hb : ∃ e', wrong [] b e'
    · obtain ⟨e', he'⟩ := hb
      exact ⟨e', firstError_cons_iff.mpr (.inl he')⟩
    · obtain ⟨e', he'⟩ := @ih (fun later => wrong (b :: later)) h
      exact ⟨e', firstError_cons_iff.mpr (.inr ⟨not_exists.mp hb, he'⟩)⟩

/-- The first wrong step comes after steps without an error. -/
theorem firstError_iff_exists : FirstError wrong l e ↔ ∃ before a after,
    l = before ++ a :: after ∧ wrong before a e ∧ ∀ e', ¬FirstError wrong before e' := by
  refine exists_congr fun before => exists_congr fun a => exists_congr fun after =>
    and_congr_right fun _ => and_congr_right fun _ => ⟨?_, ?_⟩
  · rintro hfirst e' ⟨b, x, c, heq, hwrong, -⟩
    exact hfirst b x c e' heq hwrong
  · rintro hnone b x c e' rfl hwrong
    obtain ⟨e'', he''⟩ := exists_firstError_of_wrong hwrong
    exact hnone e'' he''

theorem firstError_concat_iff : FirstError wrong (l ++ [a]) e ↔
    FirstError wrong l e ∨ (∀ e', ¬FirstError wrong l e') ∧ wrong l a e := by
  induction l generalizing wrong with
  | nil =>
    rw [List.nil_append, firstError_cons_iff]
    simp only [not_firstError_nil, false_or, not_false_eq_true, implies_true, true_and, and_false,
      or_false]
  | cons b l ih =>
    have hnone : (∀ e', ¬FirstError wrong (b :: l) e') ↔ (∀ e', ¬wrong [] b e') ∧
        ∀ e', ¬FirstError (fun later => wrong (b :: later)) l e' := by
      simp only [firstError_cons_iff, not_or, not_and, forall_and]
      exact and_congr_right fun hb => forall_congr' fun _ => ⟨fun h => h hb, fun h _ => h⟩
    rw [List.cons_append, firstError_cons_iff, firstError_cons_iff, ih, hnone]
    tauto

theorem firstError_filter_iff {wrong : α → ε → Prop} {p : α → Bool} :
    FirstError (fun _ => wrong) (l.filter p) e ↔
      FirstError (fun _ a e => p a = true ∧ wrong a e) l e := by
  induction l with
  | nil => exact iff_of_false not_firstError_nil not_firstError_nil
  | cons a l ih =>
    by_cases ha : p a = true
    · rw [List.filter_cons_of_pos ha, firstError_cons_iff, firstError_cons_iff, ih]
      simp only [ha, true_and]
    · rw [List.filter_cons_of_neg ha, firstError_cons_of_right fun e he => ha he.1]
      exact ih

/-- What is wrong with the results can be told from the steps. -/
theorem firstError_mapM_iff {wrong : β → ε → Prop} {f : α → Except ε' β} {bs : List β}
    (h : l.mapM f = .ok bs) : FirstError (fun _ => wrong) bs e ↔
      FirstError (fun _ a e => ∃ b, f a = .ok b ∧ wrong b e) l e := by
  rw [mapM_eq_ok_iff] at h
  induction h with
  | nil => exact iff_of_false not_firstError_nil not_firstError_nil
  | cons hb _ ih =>
    rw [firstError_cons_iff, firstError_cons_iff, ih]
    simp only [hb, Except.ok.injEq, exists_eq_left']

theorem mapM_eq_error_iff {f : α → Except ε β} :
    l.mapM f = .error e ↔ FirstError (fun _ a e => f a = .error e) l e := by
  induction l with
  | nil => exact iff_of_false (fun h => nomatch h) not_firstError_nil
  | cons a l ih =>
    have hrest (b : β) : (l.mapM f >>= fun bs => pure (b :: bs)) = .error e ↔
        l.mapM f = .error e := by
      rw [bind_eq_error_iff]
      exact or_iff_left fun ⟨_, _, h⟩ => nomatch h
    rw [List.mapM_cons, bind_eq_error_iff, firstError_cons_iff, ← ih]
    simp only [hrest, exists_and_right, exists_ok_iff]

section Fold

variable {f : σ → α → Except ε σ} (good : List α → σ → Prop)

theorem foldlM_eq_error_iff_after
    (herror : ∀ before s, good before s → ∀ a ∈ l, ∀ e, f s a = .error e ↔ wrong before a e)
    (hok : ∀ before s, good before s → ∀ a ∈ l, ∀ t, f s a = .ok t → good (before ++ [a]) t)
    {before : List α} {s : σ} (hs : good before s) :
    l.foldlM f s = .error e ↔ FirstError (fun later => wrong (before ++ later)) l e := by
  -- `before` grows along with the state, so that `good` speaks of all steps that have been taken.
  induction l generalizing before s with
  | nil => exact iff_of_false (fun h => nomatch h) not_firstError_nil
  | cons a l ih =>
    have ha := herror before s hs a (List.mem_cons_self ..)
    have hnext (t : σ) (ht : f s a = .ok t) : l.foldlM f t = .error e ↔
        FirstError (fun later => wrong (before ++ a :: later)) l e := by
      rw [ih (fun b s hs a ha => herror b s hs a (List.mem_cons_of_mem _ ha))
        (fun b s hs a ha => hok b s hs a (List.mem_cons_of_mem _ ha))
        (hok before s hs a (List.mem_cons_self ..) t ht)]
      simp only [List.append_assoc, List.singleton_append]
    rw [List.foldlM_cons, bind_eq_error_iff, firstError_cons_iff, List.append_nil, ← ha]
    refine or_congr_right ⟨?_, ?_⟩
    · rintro ⟨t, ht, hrest⟩
      refine ⟨fun e' he' => ?_, (hnext t ht).mp hrest⟩
      exact exists_ok_iff.mp ⟨t, ht⟩ e' ((ha e').mpr he')
    · rintro ⟨hnot, hrest⟩
      obtain ⟨t, ht⟩ := exists_ok_iff.mpr fun e' he' => hnot e' ((ha e').mp he')
      exact ⟨t, ht, (hnext t ht).mpr hrest⟩

/-- A fold ends in the error of its first wrong step if, in every state that the steps before lead
to, a step that is wrong ends in its error and one that is not leads on. -/
theorem foldlM_eq_error_iff
    (herror : ∀ before s, good before s → ∀ a ∈ l, ∀ e, f s a = .error e ↔ wrong before a e)
    (hok : ∀ before s, good before s → ∀ a ∈ l, ∀ t, f s a = .ok t → good (before ++ [a]) t)
    {s : σ} (hs : good [] s) : l.foldlM f s = .error e ↔ FirstError wrong l e :=
  foldlM_eq_error_iff_after good herror hok hs

theorem good_of_foldlM
    (hok : ∀ before s, good before s → ∀ a ∈ l, ∀ t, f s a = .ok t → good (before ++ [a]) t)
    {before : List α} {s t : σ} (hs : good before s) (h : l.foldlM f s = .ok t) :
    good (before ++ l) t := by
  induction l generalizing before s with
  | nil =>
    cases h
    rwa [List.append_nil]
  | cons a l ih =>
    obtain ⟨u, hu, hrest⟩ := foldlM_cons_eq_ok_iff.mp h
    have hnext := hok before s hs a (List.mem_cons_self ..) u hu
    have hlast := ih (fun b s hs a ha => hok b s hs a (List.mem_cons_of_mem _ ha)) hnext hrest
    rwa [List.append_assoc] at hlast

end Fold

end

end Outcome
end MatrixStack
