/-
Loaded machines cannot fault.

A machine that a loader returns is well formed (`Loaded.wellFormed`): the numbers that a text
declares are values of the number type of the machine.  Well-formed machines stay so and never
answer with a fault, so no fault is reachable from a loaded program.
-/
import MatrixStack.Proofs.Machine.WellFormed
import MatrixStack.Proofs.Program.SizeErrors
import MatrixStack.Proofs.Program.SourceLines

namespace MatrixStack

variable {t : NumberType}

/-! ## Declared numbers -/

theorem Converters.belongs_of_readNumber {token : String} {v : Number}
    (h : (Converters.ofType t).readNumber token = .ok v) : v.Belongs t := by
  rw [readNumber_eq_ok_iff, number_ofType_eq_ok_iff] at h
  exact (Literal.read_eq_ok_iff.mp h).2

theorem Declaration.belongs_of_read {line : List Char} {d : Declaration}
    (h : Declaration.read (.ofType t) line = .ok d) : ∀ v ∈ d.values, v.Belongs t := by
  unfold Declaration.read at h
  split at h
  case h_1 => cases h
  case h_2 =>
    obtain ⟨x, -, hrest⟩ := Outcome.bind_eq_ok_iff.mp h
    obtain ⟨y, -, hrest⟩ := Outcome.bind_eq_ok_iff.mp hrest
    obtain ⟨vs, hvs, heq⟩ := Outcome.bind_eq_ok_iff.mp hrest
    cases heq
    intro v hv
    obtain ⟨token, -, htoken⟩ := Outcome.exists_mem_of_mapM_eq_ok hvs hv
    exact Converters.belongs_of_readNumber htoken
  case h_3 => cases h

namespace Program

theorem Layout.belongs_of_read {lines : List (List Char)} {layout : Layout}
    (h : Layout.read (.ofType t) lines = .ok layout) :
    ∀ d ∈ layout.declarations, ∀ v ∈ d.values, v.Belongs t := by
  intro d hd
  obtain ⟨line, -, hline⟩ := Outcome.exists_mem_of_mapM_eq_ok (Layout.read_eq_ok_iff.mp h).2 hd
  exact Declaration.belongs_of_read hline

/-! ## Loaded machines -/

theorem all_empty (P : Number → Prop) : Stack.All P .empty := by
  intro v hv
  exact absurd hv List.not_mem_nil

theorem all_ring_empty (P : Number → Prop) (n : Nat) : Stack.All P (.ring (Ring.empty n)) := by
  intro v hv
  have hnone := Array.eq_of_mem_replicate hv
  cases hnone

variable {m : Machine}

theorem LaidOut.wellFormed {layout : Layout} {empty : Stack Number} (h : LaidOut layout empty t m)
    (hempty : empty.All (·.Belongs t))
    (hdeclared : ∀ d ∈ layout.declarations, ∀ v ∈ d.values, v.Belongs t) : m.WellFormed t where
  numberType := by rw [h.fresh]; rfl
  extent := h.extent
  cells p hp := by
    obtain ⟨i, hi⟩ := exists_cellAt layout.rows p
    refine ⟨i, ?_⟩
    rw [h.grid.get?, if_pos hp, hi]
  stackAt b hb := by
    rw [h.extent] at hb
    refine ⟨_, (h.stackAt b).trans (if_pos hb), hempty.pushAll fun v hv => ?_⟩
    obtain ⟨d, hd, hmem⟩ := mem_of_mem_valuesAt hv
    exact hdeclared d hd v hmem
  register := by
    rw [h.fresh]
    exact Number.belongs_zero t

theorem Loaded.wellFormed (h : Loaded (.ofType t) t m) : m.WellFormed t := by
  obtain ⟨lines, layout, empty, hread, hempty, hlaid⟩ := h.laidOut
  have hall : empty.All (·.Belongs t) := by
    rcases hempty with rfl | ⟨n, rfl⟩
    · exact all_empty _
    · exact all_ring_empty _ n
  exact hlaid.wellFormed hall (Layout.belongs_of_read hread)

/-- The machine can be brought about: it is loaded, then stepped and given numbers of its type. -/
def Reachable (t : NumberType) (m : Machine) : Prop :=
  ∃ loaded cs, Loaded (.ofType t) t loaded ∧ (∀ c ∈ cs, c.Belongs t) ∧ m = loaded.after cs

theorem Reachable.wellFormed (h : Reachable t m) : m.WellFormed t := by
  obtain ⟨loaded, cs, hloaded, hcs, rfl⟩ := h
  exact Machine.after_wellFormed hloaded.wellFormed hcs

theorem load_ne_sizeMismatch (conv : Converters) (type : NumberType) (source : String)
    (cause : SizeMismatch) : load conv type source ≠ .error (.sizeMismatch cause) := by
  intro h
  exact load_avoids_size conv type source _ h trivial

theorem build_ne_sizeMismatch (conv : Converters) (type : NumberType) (f : Frame) (source : String)
    (cause : SizeMismatch) : build conv type f source ≠ .error (.sizeMismatch cause) := by
  intro h
  exact build_avoids_mismatch conv type f source _ h ⟨cause, rfl⟩

/-- No loader finds planes that do not match, and whatever calls a loaded machine receives, it
answers none of them with a fault: the cursor finds an instruction and a stack wherever it is in
the grid, and the register and all numbers on stacks are values of the number type. -/
theorem loaded_never_faults (t : NumberType) :
    (∀ source cause, load (.ofType t) t source ≠ .error (.sizeMismatch cause)) ∧
    (∀ f source cause, build (.ofType t) t f source ≠ .error (.sizeMismatch cause)) ∧
    ∀ m, Loaded (.ofType t) t m → ∀ cs : List Call, (∀ c ∈ cs, c.Belongs t) →
      (∀ a ∈ m.answers cs, ∃ printed, a = .ok printed) ∧
      (∀ p, (m.after cs).grid.extent.contains p = true →
        (∃ i, (m.after cs).grid.get? p = some (.instruction i)) ∧
        ∃ s, (m.after cs).stackAt? p.block = some s) ∧
      (m.after cs).numberType = t ∧
      (m.after cs).register.Belongs t ∧
      ∀ b s, (m.after cs).stackAt? b = some s → ∀ v ∈ s.items, v.Belongs t := by
  refine ⟨load_ne_sizeMismatch _ t, build_ne_sizeMismatch _ t, ?_⟩
  intro m hm cs hcs
  have hinit := hm.wellFormed
  have hafter := Machine.after_wellFormed hinit hcs
  refine ⟨Machine.answers_of_wellFormed hinit hcs, ?_, hafter.numberType, hafter.register, ?_⟩
  · intro p hp
    refine ⟨hafter.cells p hp, ?_⟩
    obtain ⟨s, hs, -⟩ := hafter.stackAt p.block (by
      rw [hafter.extent]
      exact Extent.contains_blocks hp)
    exact ⟨s, hs⟩
  · intro b s hs
    have hin : (m.after cs).stackPlane.extent.contains b = true := contains_of_join_get? hs
    obtain ⟨s', hs', hall⟩ := hafter.stackAt b hin
    obtain rfl : s = s' := Option.some.inj (hs.symm.trans hs')
    exact hall.items

theorem loaded_never_faults_dividing_by_zero :
    let byte := NumberType.unsigned .bits8
    let calls := [.step, .input ⟨byte, 7⟩, .step, .step]
    ∃ m, load (.ofType byte) byte "s 0 0 0\ni~p" = .ok m ∧
      (∀ c ∈ calls, c.Belongs byte) ∧ ∀ a ∈ m.answers calls, ∃ printed, a = .ok printed := by
  intro byte calls
  have hok : (load (.ofType byte) byte "s 0 0 0\ni~p").isOk = true := by decide
  obtain ⟨m, hm⟩ := Outcome.exists_of_isOk hok
  have hcalls : ∀ c ∈ calls, c.Belongs byte := by decide
  have hsafe := (loaded_never_faults byte).2.2 m (.grown _ hm) calls hcalls
  exact ⟨m, hm, hcalls, hsafe.1⟩

end Program
end MatrixStack
