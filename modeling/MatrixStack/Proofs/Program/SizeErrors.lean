/-
Errors of size.

Reading a text never ends in an error that is about the size of a machine, and a plane of stacks
always gets the size that its grid asks for.  So a grid that grows has no size error at all
(`load_avoids_size`), and a fixed one only those of the frame it was asked for
(`build_avoids_mismatch`).
-/
import MatrixStack.Proofs.Program.Loaded

namespace MatrixStack

open Outcome

def LoadError.OfSize : LoadError → Prop
  | .negativeExtent _ | .noCapacity _ | .sizeMismatch _ => True
  | _ => False

def LoadError.IsMismatch (e : LoadError) : Prop := ∃ cause, e = .sizeMismatch cause

theorem LoadError.IsMismatch.ofSize {e : LoadError} (h : e.IsMismatch) : e.OfSize := by
  obtain ⟨cause, rfl⟩ := h
  trivial

/-! ## Reading -/

section

variable (conv : Converters)

theorem Refusal.not_ofSize_toLoadError {e : LoadError} (he : ¬e.OfSize) (r : Refusal) :
    ¬(r.toLoadError e).OfSize := by
  cases r with
  | rejected => exact he
  | missingKey key => exact id

theorem Converters.readNumber_avoids_size (token : String) :
    Avoids LoadError.OfSize (conv.readNumber token) := by
  unfold Converters.readNumber
  split
  case h_1 refusal _ => exact avoids_error (Refusal.not_ofSize_toLoadError id refusal)
  case h_2 n _ => exact avoids_ok _ n

theorem Converters.readCoordinate_avoids_size (token : String) :
    Avoids LoadError.OfSize (conv.readCoordinate token) := by
  unfold Converters.readCoordinate
  split
  case h_1 refusal _ => exact avoids_error (Refusal.not_ofSize_toLoadError id refusal)
  case h_2 n _ =>
    split
    case h_1 refusal _ => exact avoids_error (Refusal.not_ofSize_toLoadError id refusal)
    case h_2 i _ => exact avoids_ok _ i

theorem Declaration.read_avoids_size (line : List Char) :
    Avoids LoadError.OfSize (Declaration.read conv line) := by
  unfold Declaration.read
  split
  case h_1 => exact avoids_error id
  case h_2 x y values _ =>
    refine (conv.readCoordinate_avoids_size x).bind fun x' _ => ?_
    refine (conv.readCoordinate_avoids_size y).bind fun y' _ => ?_
    refine (avoids_mapM conv.readNumber_avoids_size values).bind fun vs _ => ?_
    exact avoids_ok _ _
  case h_3 => exact avoids_error id

theorem Line.readInstruction_avoids_size (c : Char) :
    Avoids LoadError.OfSize (Line.readInstruction c) := by
  unfold Line.readInstruction
  split
  · exact avoids_ok _ _
  · exact avoids_error id

theorem Line.read_avoids_size (line : List Char) :
    Avoids LoadError.OfSize (Line.read conv line) := by
  unfold Line.read
  split
  · exact avoids_ok _ _
  · exact (Declaration.read_avoids_size conv _).map _
  · exact (avoids_mapM Line.readInstruction_avoids_size _).map _

namespace Program

theorem Layout.read_avoids_size (lines : List (List Char)) :
    Avoids LoadError.OfSize (Layout.read conv lines) :=
  (avoids_mapM (Line.read_avoids_size conv) lines).bind fun _ _ => avoids_ok _ _

theorem declare_avoids_size (plane : StackPlane) (d : Declaration) :
    Avoids LoadError.OfSize (declare plane d) := by
  unfold declare
  split
  · exact avoids_error id
  · exact avoids_ok _ _

end Program
end

/-! ## Loading -/

namespace Program

variable (conv : Converters) (type : NumberType)

theorem load_avoids_size (source : String) :
    Avoids LoadError.OfSize (load conv type source) := by
  refine (Layout.read_avoids_size conv _).bind fun layout _ => ?_
  refine (avoids_foldlM declare_avoids_size layout.declarations _).bind fun plane hplane => ?_
  have hheight : 0 ≤ (gridOf layout.rows).extent.blocks.height :=
    blocksCovering_nonneg (Int.natCast_nonneg _)
  rw [assemble_eq_ok ((foldlM_declare hplane).1.trans (uniform_emptyStacks hheight).extent)]
  exact avoids_ok _ _

theorem placeRow_avoids_size (grid : Plane Cell) (y x : Nat) (cs : List Char) :
    Avoids LoadError.OfSize (Site.placeRow grid y x cs) := by
  induction cs generalizing grid x with
  | nil => exact avoids_ok _ grid
  | cons c rest ih =>
    rw [Site.placeRow]
    split
    case h_1 e he => exact avoids_error (Line.readInstruction_avoids_size c e he)
    case h_2 i _ =>
      split
      case h_1 => exact avoids_error id
      case h_2 grid' _ => exact ih grid' (x + 1)

theorem place_avoids_size (s : Site) (line : List Char) :
    Avoids LoadError.OfSize (Site.place conv s line) := by
  unfold Site.place
  split
  · exact avoids_ok _ s
  · refine (Declaration.read_avoids_size conv _).bind fun d _ => ?_
    exact (declare_avoids_size _ d).bind fun plane _ => avoids_ok _ _
  · exact (placeRow_avoids_size _ _ _ _).bind fun grid _ => avoids_ok _ _

theorem site_avoids_mismatch (f : Frame) : Avoids LoadError.IsMismatch f.site := by
  have hnegative : ∀ cause, ¬(LoadError.negativeExtent cause).IsMismatch := by
    rintro _ ⟨_, h⟩
    cases h
  have hcapacity : ∀ cause, ¬(LoadError.noCapacity cause).IsMismatch := by
    rintro _ ⟨_, h⟩
    cases h
  refine (avoids_mapError hnegative _).bind fun grid _ => ?_
  refine Avoids.bind ?_ fun plane _ => avoids_ok _ _
  unfold Frame.emptyRings
  simp only
  split
  · exact (avoids_mapError hnegative _).bind fun plane _ => avoids_ok _ _
  · refine (avoids_mapError hcapacity _).bind fun ring _ => ?_
    exact (avoids_mapError hnegative _).bind fun plane _ => avoids_ok _ _

theorem build_avoids_mismatch (f : Frame) (source : String) :
    Avoids LoadError.IsMismatch (build conv type f source) := by
  refine (site_avoids_mismatch f).bind fun s hs => ?_
  refine Avoids.bind ?_ fun t ht => ?_
  · have hplace := avoids_foldlM (place_avoids_size conv) (Text.splitLines source.toList) s
    exact hplace.mono fun e he => he.ofSize
  · obtain ⟨hblank, hrings⟩ := site_eq_ok hs
    obtain ⟨layout, _, hcarries⟩ := carries_of_foldlM_place hblank ht
    have hext : t.stackPlane.extent = t.grid.extent.blocks := by
      rw [(foldlM_declare hcarries.declared).1, (uniform_emptyRings hrings).1.extent,
        hcarries.grid.extent]
    rw [assemble_eq_ok hext]
    exact avoids_ok _ _

end Program
end MatrixStack
