/-
The numbers that a program text puts onto its stacks.

`valuesAt` collects the numbers that the declarations of a text push onto the stack of a block.
Carrying out the declarations one after the other leaves every stack with its collected numbers
(`foldlM_declare`), and can be done exactly where each of them finds its stack.
-/
import MatrixStack.Program.Growable
import MatrixStack.Proofs.Program.Outcome

namespace MatrixStack
namespace Program

/-- The numbers declared for the stack of a block, in the order in which they are pushed. -/
def valuesAt (ds : List Declaration) (b : Pointer) : List Number :=
  ds.flatMap fun d => if d.block = b then d.values else []

theorem valuesAt_cons (d : Declaration) (ds : List Declaration) (b : Pointer) :
    valuesAt (d :: ds) b = (if d.block = b then d.values else []) ++ valuesAt ds b :=
  List.flatMap_cons

theorem valuesAt_eq (ds : List Declaration) (b : Pointer) :
    valuesAt ds b = (ds.filter (·.block = b)).flatMap Declaration.values := by
  induction ds with
  | nil => rfl
  | cons d ds ih =>
    rw [valuesAt_cons, ih]
    by_cases hb : d.block = b
    · rw [if_pos hb, List.filter_cons, if_pos (decide_eq_true hb), List.flatMap_cons]
    · rw [if_neg hb, List.filter_cons, if_neg (by simpa using hb), List.nil_append]

theorem valuesAt_eq_nil {ds : List Declaration} {b : Pointer} (h : ∀ d ∈ ds, d.block ≠ b) :
    valuesAt ds b = [] := by
  rw [valuesAt, List.flatMap_eq_nil_iff]
  intro d hd
  exact if_neg (h d hd)

theorem mem_of_mem_valuesAt {ds : List Declaration} {b : Pointer} {v : Number}
    (h : v ∈ valuesAt ds b) : ∃ d ∈ ds, v ∈ d.values := by
  obtain ⟨d, hd, hv⟩ := List.mem_flatMap.mp h
  by_cases hb : d.block = b
  · rw [if_pos hb] at hv
    exact ⟨d, hd, hv⟩
  · rw [if_neg hb] at hv
    exact absurd hv List.not_mem_nil

theorem pushAll_append (s : Stack Number) (vs ws : List Number) :
    s.pushAll (vs ++ ws) = (s.pushAll vs).pushAll ws :=
  List.foldl_append

variable {before after : StackPlane} {ds : List Declaration}

theorem contains_of_join_get? {b : Pointer} {s : Stack Number}
    (h : (before.get? b).join = some s) : before.extent.contains b = true := by
  rw [← Plane.get?_isSome_iff, Option.join_eq_some_iff.mp h]
  rfl

theorem declare_eq_ok {d : Declaration} (h : declare before d = .ok after) :
    after.extent = before.extent ∧ ∀ b, (after.get? b).join =
      (before.get? b).join.map fun s => s.pushAll (if d.block = b then d.values else []) := by
  unfold declare at h
  cases hs : (before.get? d.block).join with
  | none =>
    rw [hs] at h
    cases h
  | some s =>
    rw [hs] at h
    cases h
    refine ⟨Plane.extent_set _ _ _, fun b => ?_⟩
    rw [Plane.get?_set]
    by_cases hb : b = d.block
    · rw [if_pos ⟨hb, contains_of_join_get? hs⟩, if_pos hb.symm, hb, hs]
      rfl
    · rw [if_neg fun hc => hb hc.1, if_neg (Ne.symm hb)]
      exact Option.map_id_apply.symm

theorem foldlM_declare (h : ds.foldlM declare before = .ok after) :
    after.extent = before.extent ∧ ∀ b, (after.get? b).join =
      (before.get? b).join.map fun s => s.pushAll (valuesAt ds b) := by
  induction ds generalizing before with
  | nil =>
    cases h
    exact ⟨rfl, fun b => Option.map_id_apply.symm⟩
  | cons d ds ih =>
    obtain ⟨mid, hd, hds⟩ := Outcome.foldlM_cons_eq_ok_iff.mp h
    obtain ⟨hext, hstacks⟩ := declare_eq_ok hd
    obtain ⟨hext', hstacks'⟩ := ih hds
    refine ⟨hext'.trans hext, fun b => ?_⟩
    rw [hstacks', hstacks, Option.map_map, valuesAt_cons]
    congr 1
    funext s
    exact (pushAll_append s _ _).symm

theorem foldlM_declare_concat {mid : StackPlane} {d : Declaration}
    (hds : ds.foldlM declare before = .ok mid) (hd : declare mid d = .ok after) :
    (ds ++ [d]).foldlM declare before = .ok after := by
  rw [List.foldlM_append]
  refine Outcome.bind_eq_ok_iff.mpr ⟨mid, hds, ?_⟩
  exact Outcome.foldlM_cons_eq_ok_iff.mpr ⟨after, hd, rfl⟩

/-- Declarations are carried out exactly where each of them finds its stack. -/
theorem exists_foldlM_declare_iff :
    (∃ after, ds.foldlM declare before = .ok after) ↔
      ∀ d ∈ ds, (before.get? d.block).join.isSome := by
  induction ds generalizing before with
  | nil => exact ⟨fun _ d hd => absurd hd List.not_mem_nil, fun _ => ⟨before, rfl⟩⟩
  | cons d ds ih =>
    constructor
    · rintro ⟨after, h⟩
      obtain ⟨mid, hd, hds⟩ := Outcome.foldlM_cons_eq_ok_iff.mp h
      have hrest := ih.mp ⟨after, hds⟩
      intro d' hd'
      rcases List.mem_cons.mp hd' with rfl | hmem
      · unfold declare at hd
        cases hs : (before.get? d'.block).join with
        | none =>
          rw [hs] at hd
          cases hd
        | some s => rfl
      · have := hrest d' hmem
        rwa [(declare_eq_ok hd).2, Option.isSome_map] at this
    · intro h
      obtain ⟨s, hs⟩ := Option.isSome_iff_exists.mp (h d (List.mem_cons_self ..))
      have hd : declare before d =
          .ok (before.set d.block (some (s.pushAll d.values))) := by
        rw [declare, hs]
      obtain ⟨after, hafter⟩ := ih.mpr fun d' hd' => by
        rw [(declare_eq_ok hd).2, Option.isSome_map]
        exact h d' (List.mem_cons_of_mem d hd')
      exact ⟨after, Outcome.foldlM_cons_eq_ok_iff.mpr ⟨_, hd, hafter⟩⟩

end Program
end MatrixStack
