/-
The stack panel, read back.

A stack has a line in the panel if there is a number on it or the cursor is in its block.  The line
names the block, and behind the name stand the numerals of the numbers, top first.  `entriesOf`
collects the lines that name a block: there is one for a listed stack and none for any other
(`entriesOf_stacksText`).  No numeral has a blank in it, so the line gives the numbers back
(`values_of_valuesText`), and panels that are the same list the same stacks.
-/
import MatrixStack.Debugger.Panel
import MatrixStack.Proofs.Plane.Stores
import MatrixStack.Proofs.Text.Fields

namespace MatrixStack

/-- No number in the machine has too many digits to be printed. -/
structure Machine.Printable (m : Machine) : Prop where
  register : Decimal.printable m.register.value = true
  items : ∀ b s, m.stackAt? b = some s → ∀ v ∈ s.items, Decimal.printable v.value = true

namespace Panel

variable {m m' : Machine} {b : Pointer} {items items' : List Number} {text : String}

/-! ## The numbers of a line -/

/-- The numerals of the numbers on a stack, top first. -/
def numerals (items : List Number) : List String :=
  items.reverse.map fun v => Decimal.text v.value

def valuesText (items : List Number) : String :=
  if items.isEmpty then "(empty)" else " ".intercalate (numerals items)

theorem numerals_eq (items : List Number) :
    numerals items = (items.map Number.value).reverse.map Decimal.text := by
  simp [numerals, List.map_reverse]

theorem splitOn_valuesText (hne : items ≠ []) :
    (valuesText items).toList.splitOn ' ' = (numerals items).map String.toList := by
  have hnumerals : (numerals items).map String.toList ≠ [] := by simp [numerals, hne]
  rw [valuesText, if_neg (by simpa using hne), String.toList_intercalate]
  refine List.splitOn_intercalate ' ' (fun word hword => ?_) hnumerals
  rw [numerals_eq, List.map_map] at hword
  obtain ⟨v, -, rfl⟩ := List.mem_map.mp hword
  exact Decimal.not_mem_text (by decide) rfl v

theorem valuesText_ne_empty (hne : items ≠ []) : valuesText items ≠ valuesText [] := by
  intro h
  have hwords := splitOn_valuesText hne
  rw [h, numerals_eq, List.map_map] at hwords
  have hempty : "(empty)".toList ∈ (valuesText []).toList.splitOn ' ' := by decide
  rw [hwords] at hempty
  obtain ⟨v, -, hv⟩ := List.mem_map.mp hempty
  have hparenthesis : '(' ∈ (String.toList ∘ Decimal.text) v := by
    rw [hv]
    decide
  exact Decimal.not_mem_text (by decide) rfl v hparenthesis

/-- The numbers can be read off the line. -/
theorem values_of_valuesText (h : valuesText items = valuesText items') :
    items.map Number.value = items'.map Number.value := by
  by_cases hne : items = []
  · by_cases hne' : items' = []
    · rw [hne, hne']
    · exact absurd (hne ▸ h.symm) (valuesText_ne_empty hne')
  by_cases hne' : items' = []
  · exact absurd (hne' ▸ h) (valuesText_ne_empty hne)
  have hwords := splitOn_valuesText hne
  rw [h, splitOn_valuesText hne', List.map_inj_right fun _ _ => String.toList_inj.mp,
    numerals_eq, numerals_eq, List.map_inj_right fun _ _ => Decimal.text_injective,
    List.reverse_inj] at hwords
  exact hwords.symm

/-! ## The line of a stack -/

def entry (m : Machine) (b : Pointer) (items : List Number) : String :=
  (if b = m.pointer.block then "▸" else " ") ++ " " ++ b.text ++ ": " ++ valuesText items

/-- The lines for one stack: a single one, or none. -/
def listed (m : Machine) (b : Pointer) (items : List Number) : List String :=
  if items.isEmpty && b ≠ m.pointer.block then [] else [entry m b items]

theorem mapM_eq_some_map {α β : Type} {f : α → Option β} {g : α → β} {l : List α}
    (h : ∀ a ∈ l, f a = some (g a)) : l.mapM f = some (l.map g) := by
  induction l with
  | nil => rfl
  | cons a l ih =>
    obtain ⟨ha, hl⟩ := List.forall_mem_cons.mp h
    rw [List.mapM_cons, ha, ih hl]
    rfl

theorem stackLine?_eq (h : ∀ v ∈ items, Decimal.printable v.value = true) (m : Machine)
    (b : Pointer) : stackLine? m b items = some (listed m b items) := by
  have hnumerals : items.reverse.mapM Number.printed? = some (numerals items) :=
    mapM_eq_some_map fun v hv => Decimal.print?_eq_some_iff.mpr ⟨h v (List.mem_reverse.mp hv), rfl⟩
  have hempty : numerals items = [] ↔ items = [] := by simp [numerals]
  unfold stackLine? listed entry valuesText
  by_cases hb : b = m.pointer.block
  · simp [hb, hnumerals, hempty]
  · by_cases hnone : items = []
    · simp [hb, hnone]
    · simp [hb, hnone, hnumerals, hempty]

theorem oneLine_entry (m : Machine) (b : Pointer) (items : List Number) :
    Text.OneLine (entry m b items) := by
  have hmarker : Text.OneLine (if b = m.pointer.block then "▸" else " ") := by split <;> decide
  have hvalues : Text.OneLine (valuesText items) := by
    unfold valuesText
    split
    · decide
    · refine .intercalate (by decide) fun numeral hnumeral => ?_
      obtain ⟨v, -, rfl⟩ := List.mem_map.mp hnumeral
      exact Decimal.oneLine_text v.value
  exact (((hmarker.append (by decide)).append b.oneLine_text).append (by decide)).append hvalues

/-- The line names the block, behind the place of the marker. -/
def names (b : Pointer) (line : List Char) : Bool :=
  (b.text.toList ++ [':', ' ']).isPrefixOf (line.drop 2)

theorem names_entry (m : Machine) (b q : Pointer) (items : List Number) :
    names b (entry m q items).toList = decide (q = b) := by
  have hdrop : (entry m q items).toList.drop 2 =
      q.text.toList ++ ([':', ' '] ++ (valuesText items).toList) := by
    unfold entry
    split <;> simp
  rw [names, hdrop, Bool.eq_iff_iff, List.isPrefixOf_iff_prefix, decide_eq_true_iff]
  constructor
  · rintro ⟨rest, hrest⟩
    rw [List.append_assoc] at hrest
    exact (Pointer.text_append_inj hrest).1.symm
  · rintro rfl
    exact ⟨_, List.append_assoc ..⟩

/-! ## The panel -/

/-- The numbers on the stack of a block, if there is one. -/
def itemsAt (m : Machine) (b : Pointer) : List Number := ((m.stackAt? b).map Stack.items).getD []

/-- The lines of all listed stacks. -/
def listing (m : Machine) : List String :=
  m.stackPlane.extent.pointers.flatMap fun b => listed m b (itemsAt m b)

theorem stackLines?_eq (hm : m.Printable) : stackLines? m = some (listing m) := by
  have hcell : ∀ c ∈ m.stackPlane.cells, m.stackAt? c.1 = c.2 := by
    rintro ⟨q, s⟩ hc
    rw [Machine.stackAt?, (Plane.keeps_extent m.stackPlane).cells_current q s hc]
    rfl
  have hline : ∀ c ∈ m.stackPlane.cells, stackLine? m c.1 ((c.2.map Stack.items).getD []) =
      some (listed m c.1 (itemsAt m c.1)) := by
    intro c hc
    rw [itemsAt, hcell c hc]
    refine stackLine?_eq (fun v hv => ?_) m c.1
    cases hs : c.2 with
    | none =>
      rw [hs] at hv
      cases hv
    | some s =>
      rw [hs] at hv
      exact hm.items c.1 s ((hcell c hc).trans hs) v hv
  rw [stackLines?, mapM_eq_some_map hline, listing, ← Plane.map_fst_cells, List.flatMap_map]
  rfl

theorem exists_stacksText (hm : m.Printable) : ∃ text, stacksText? m = some text := by
  rw [stacksText?, stackLines?_eq hm]
  exact ⟨_, rfl⟩

/-- The lines of the panel that name a block. -/
def entriesOf (b : Pointer) (text : String) : List (List Char) :=
  (Text.linesIn text).filter (names b)

theorem flatMap_ite_eq {α β : Type} [DecidableEq α] {l : List α} {a : α} (hnodup : l.Nodup)
    (ha : a ∈ l) (f : α → List β) : l.flatMap (fun c => if c = a then f c else []) = f a := by
  induction l with
  | nil => cases ha
  | cons c l ih =>
    obtain ⟨hc, hl⟩ := List.nodup_cons.mp hnodup
    rw [List.flatMap_cons]
    rcases List.mem_cons.mp ha with rfl | hmem
    · have hrest : l.flatMap (fun c => if c = a then f c else []) = [] := by
        refine List.flatMap_eq_nil_iff.mpr fun c hmem => if_neg ?_
        rintro rfl
        exact hc hmem
      rw [if_pos rfl, hrest, List.append_nil]
    · have hne : c ≠ a := by
        rintro rfl
        exact hc hmem
      rw [if_neg hne, ih hl hmem, List.nil_append]

theorem filter_listing (hb : m.stackPlane.extent.contains b = true) :
    (listing m).filter (fun line => names b line.toList) = listed m b (itemsAt m b) := by
  have hline (q : Pointer) : (listed m q (itemsAt m q)).filter (fun line => names b line.toList) =
      if q = b then listed m q (itemsAt m q) else [] := by
    unfold listed
    by_cases hq : q = b <;> split <;> simp [names_entry, hq]
  have hnodup : m.stackPlane.extent.pointers.Nodup := by
    refine m.stackPlane.extent.pairwise_pointers.imp fun {q s} hbefore heq => ?_
    subst heq
    simp [Pointer.RowMajor] at hbefore
  simp only [listing, List.filter_flatMap, hline]
  exact flatMap_ite_eq hnodup (Extent.mem_pointers_iff.mpr hb) fun q => listed m q (itemsAt m q)

/-- A listed stack is named in one line, and any other in none. -/
theorem entriesOf_stacksText (hm : m.Printable) (h : stacksText? m = some text)
    (hb : m.stackPlane.extent.contains b = true) :
    entriesOf b text = (listed m b (itemsAt m b)).map String.toList := by
  have hlines : entriesOf b text = ((listing m).map String.toList).filter (names b) := by
    rw [stacksText?, stackLines?_eq hm, Option.map_some, Option.some.injEq] at h
    subst h
    by_cases hnone : listing m = []
    · -- The text for no lines names no block.
      have hfirst : '(' ≠ 'l' := by decide
      have hname : ¬names b "(all empty)".toList = true := by
        rw [names, List.isPrefixOf_iff_prefix]
        rintro ⟨rest, hrest⟩
        rw [Pointer.toList_text] at hrest
        exact hfirst (List.cons.inj hrest).1
      rw [if_pos (by simpa using hnone), hnone, entriesOf, Text.linesIn_of_oneLine (by decide),
        List.filter_cons_of_neg hname]
      rfl
    · have honeLine : ∀ line ∈ listing m, Text.OneLine line := by
        intro line hline
        obtain ⟨q, -, hq⟩ := List.mem_flatMap.mp hline
        unfold listed at hq
        split at hq
        · cases hq
        · rw [List.mem_singleton.mp hq]
          exact oneLine_entry m q _
      rw [if_neg (by simpa using hnone), entriesOf, Text.linesIn_intercalate honeLine hnone]
  rw [hlines, List.filter_map, ← filter_listing hb]
  rfl

/-! ## Equal panels -/

theorem values_of_listed (hpointer : m'.pointer = m.pointer)
    (h : listed m' b items' = listed m b items) :
    items'.map Number.value = items.map Number.value := by
  unfold listed at h
  rw [hpointer] at h
  split at h
  case isTrue hnone' =>
    split at h
    case isTrue hnone =>
      simp_all
    case isFalse => cases h
  case isFalse =>
    split at h
    case isTrue => cases h
    case isFalse =>
      have hentry := (List.cons.inj h).1
      rw [entry, entry, hpointer, String.append_right_inj] at hentry
      exact values_of_valuesText hentry

/-- Machines with the cursor at one place and the same panel have the same values on all stacks. -/
theorem values_of_stacksText (hm : m.Printable) (hm' : m'.Printable)
    (hpointer : m'.pointer = m.pointer) (hextent : m'.stackPlane.extent = m.stackPlane.extent)
    (h : stacksText? m = some text) (h' : stacksText? m' = some text)
    (hb : m.stackPlane.extent.contains b = true) :
    (itemsAt m' b).map Number.value = (itemsAt m b).map Number.value := by
  have hentries := entriesOf_stacksText hm' h' (hextent ▸ hb)
  rw [entriesOf_stacksText hm h hb, List.map_inj_right fun _ _ => String.toList_inj.mp] at hentries
  exact values_of_listed hpointer hentries.symm

end Panel
end MatrixStack
