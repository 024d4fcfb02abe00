/-
Rings that are large enough.

A text loaded onto a grid that grows and the same text built at that size start as machines that
are alike: the cells are those of the same layout, and a stack and a ring that have received the
same numbers hold the same ones, if these fit (`alike_of_load_of_build`).  So the two machines
cannot be told apart for as long as no stack outgrows the rings.
-/
import Mathlib.Data.List.Infix
import MatrixStack.Proofs.Machine.Planes
import MatrixStack.Proofs.Program.Loaded

namespace MatrixStack
namespace Program

variable {conv : Converters} {type : NumberType} {source : String} {g b : Machine}

theorem alike_of_laidOut {layout : Layout} {capacity : Nat} (hg : LaidOut layout .empty type g)
    (hb : LaidOut layout (.ring (Ring.empty capacity)) type b)
    (hextent : b.grid.extent = g.grid.extent)
    (hcapacity : ∀ p, g.grid.extent.blocks.contains p = true → 0 < capacity)
    (hbound : ∀ p s, g.stackAt? p = some s → s.size ≤ capacity) :
    Machine.Alike (Stack.RingOf capacity) g b where
  agrees := by
    rw [Machine.Agrees, hg.fresh, hb.fresh]
    rfl
  cells q := by rw [hg.grid.get?, hb.grid.get?, hextent]
  stackAt p := by
    have hstack := hg.stackAt p
    rw [hstack, hb.stackAt p, hextent]
    cases hp : g.grid.extent.blocks.contains p with
    | false => exact .none
    | true =>
      rw [hp] at hstack
      have hsize := hbound p _ hstack
      have hlen : (valuesAt layout.declarations p).length ≤ capacity := by
        rwa [Stack.size, Stack.empty, Stack.items_pushAll_growable] at hsize
      exact .some (Stack.ringOf_pushAll (hcapacity p hp) hlen)

theorem alike_of_load_of_build {capacity : Int} (hg : load conv type source = .ok g)
    (hb : build conv type ⟨g.grid.extent, capacity⟩ source = .ok b)
    (hbound : ∀ p s, g.stackAt? p = some s → (s.size : Int) ≤ capacity) :
    Machine.Alike (Stack.RingOf capacity.toNat) g b := by
  obtain ⟨layout, hread, hlaid, -⟩ := laidOut_of_load hg
  obtain ⟨layout', hread', hfits, hlaid', hextent⟩ := laidOut_of_build hb
  obtain ⟨hsame, -⟩ := Layout.read_splitLines_iff.mp hread'
  obtain rfl : layout = layout' := Except.ok.inj (hread.symm.trans hsame)
  refine alike_of_laidOut hlaid hlaid' hextent ?_ ?_
  · intro p hp
    have hpos : 1 ≤ capacity := hfits.capacity_pos ⟨p, hp⟩
    omega
  · intro p s hs
    have hsize := hbound p s hs
    omega

/-- Only the blocks of the plane and the prefixes of the calls need to be looked at. -/
theorem bounded_iff {m : Machine} {cs : List Call} {capacity : Int} :
    (∀ ds, ds <+: cs → ∀ p s, (m.after ds).stackAt? p = some s → (s.size : Int) ≤ capacity) ↔
      ∀ ds ∈ cs.inits, ∀ p ∈ (m.after ds).stackPlane.extent.pointers,
        ∀ s ∈ (m.after ds).stackAt? p, (s.size : Int) ≤ capacity := by
  constructor
  · intro h ds hds
    exact Machine.forall_stackAt?_iff.mp (h ds ((List.mem_inits ds cs).mp hds))
  · intro h ds hds
    exact Machine.forall_stackAt?_iff.mpr (h ds ((List.mem_inits ds cs).mpr hds))

/-- The machine of fixed size goes through a sequence of calls in the same way as the one that grows
for as long as no stack of the latter holds more than fits into a ring. -/
theorem fixed_simulates_growable (conv : Converters) (type : NumberType) (source : String)
    (capacity : Int) (g b : Machine) (hg : load conv type source = .ok g)
    (hb : build conv type ⟨g.grid.extent, capacity⟩ source = .ok b) (cs : List Call)
    (hbound : ∀ ds, ds <+: cs → ∀ p s, (g.after ds).stackAt? p = some s →
      (s.size : Int) ≤ capacity) :
    g.answers cs = b.answers cs ∧
    ∀ ds, ds <+: cs →
      (g.after ds).state = (b.after ds).state ∧
      (g.after ds).register = (b.after ds).register ∧
      (g.after ds).pointer = (b.after ds).pointer ∧
      (g.after ds).direction = (b.after ds).direction ∧
      (g.after ds).steps = (b.after ds).steps ∧
      (g.after ds).outputs = (b.after ds).outputs ∧
      (g.after ds).inputs = (b.after ds).inputs ∧
      (∀ q, (g.after ds).grid.get? q = (b.after ds).grid.get? q) ∧
      ∀ p, ((g.after ds).stackAt? p).map Stack.items =
        ((b.after ds).stackAt? p).map Stack.items := by
  have hinit := alike_of_load_of_build hg hb (hbound [] List.nil_prefix)
  have halike : ∀ ds, ds <+: cs →
      g.answers ds = b.answers ds ∧
        Machine.Alike (Stack.RingOf capacity.toNat) (g.after ds) (b.after ds) := by
    intro ds hds
    refine Machine.answers_alike (Stack.likeness_ringOf capacity.toNat) hinit ?_
    intro es hes p s hs
    have hsize := hbound es (hes.trans hds) p s hs
    omega
  refine ⟨(halike cs List.prefix_rfl).1, fun ds hds => ?_⟩
  obtain ⟨-, hagrees, hcells, hstacks⟩ := halike ds hds
  have hitems : ∀ p, ((g.after ds).stackAt? p).map Stack.items =
      ((b.after ds).stackAt? p).map Stack.items := by
    intro p
    rcases Machine.rel_cases (hstacks p) with ⟨hs, ht⟩ | ⟨s, t, hs, ht, hst⟩
    · rw [hs, ht]
    · rw [hs, ht, Option.map_some, Option.map_some, hst.items]
  obtain ⟨grid, plane, heq⟩ := hagrees.exists_planes
  rw [heq] at hcells hitems ⊢
  exact ⟨rfl, rfl, rfl, rfl, rfl, rfl, rfl, fun q => (hcells q).symm, hitems⟩

theorem fixed_simulates_growable_full_ring :
    let byte := NumberType.unsigned .bits8
    let source := "s 0 0 7\n.d,.p"
    let calls := List.replicate 5 Call.step
    ∃ g b, load (.ofType byte) byte source = .ok g ∧
      build (.ofType byte) byte ⟨g.grid.extent, 2⟩ source = .ok b ∧
      (∀ ds, ds <+: calls → ∀ p s, (g.after ds).stackAt? p = some s → (s.size : Int) ≤ 2) ∧
      g.answers calls = b.answers calls := by
  intro byte source calls
  have hload : (load (.ofType byte) byte source).isOk = true := by decide
  obtain ⟨g, hg⟩ := Outcome.exists_of_isOk hload
  have hbuild : (load (.ofType byte) byte source >>= fun g =>
      build (.ofType byte) byte ⟨g.grid.extent, 2⟩ source).isOk = true := by decide
  rw [hg] at hbuild
  obtain ⟨b, hb⟩ := Outcome.exists_of_isOk hbuild
  have hcheck : ∀ g ∈ (load (.ofType byte) byte source).toOption, ∀ ds ∈ calls.inits,
      ∀ p ∈ (g.after ds).stackPlane.extent.pointers, ∀ s ∈ (g.after ds).stackAt? p,
        (s.size : Int) ≤ 2 := by decide
  rw [hg] at hcheck
  have hbound := bounded_iff.mpr (hcheck g rfl)
  have hrun := fixed_simulates_growable _ byte source 2 g b hg hb calls hbound
  exact ⟨g, b, hg, hb, hbound, hrun.1⟩

end Program
end MatrixStack
