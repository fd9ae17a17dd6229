import FileSharing.Log
import FileSharing.Proofs.Cutting
import Mathlib.Data.List.Infix

/-!
# Formats that are filled

A format is cut at its places, from the left, as often as there are both a place and an argument,
and the pieces are joined by the arguments.  Which pieces these are hangs on the format, and on
how many arguments there are, but on nothing that the arguments say: a place that comes about by
filling another one is none.

## Main definitions

* `Text.Cuts` — the pieces of a text that is cut so many times at a word.
* `Log.places` — how many places there are in a format.
* `Log.joinedBy` — pieces with a text between each two of them.

## Main results

* `Text.Cuts.unique`, `Text.Cuts.intercalate_eq` — the pieces are those of one text.
* `Log.exists_cuts_iff` — **a format is cut once for each place, and no more.**
* `Log.format_fills` — **a filled format is its pieces joined by the arguments.**
-/

namespace FileSharing.Text

/-! ### Cuts -/

/-- Whether `pieces` are those of a text that is cut `k` times at a word: at its first occurrence,
and where more cuts are to be made, what follows is cut in the same way. -/
inductive Cuts (word : Text) : (k : Nat) → (s : Text) → (pieces : List Text) → Prop
  /-- A text that is not cut is one piece. -/
  | whole (s : Text) : Cuts word 0 s [s]
  /-- A text is cut at the first occurrence, and no more cuts are made before it. -/
  | cut {k : Nat} {s before after : Text} {pieces : List Text} (h : IsCut word s before after)
      (hs : Cuts word k after pieces) : Cuts word (k + 1) s (before :: pieces)

namespace Cuts

variable {word s : Text} {k : Nat} {pieces pieces' : List Text}

theorem ne_nil (h : Cuts word k s pieces) : pieces ≠ [] := by
  cases h with
  | whole => simp
  | cut => simp

theorem eq_whole (h : Cuts word 0 s pieces) : pieces = [s] := by
  cases h
  rfl

/-- There are not two ways to cut a text. -/
theorem unique (h : Cuts word k s pieces) (h' : Cuts word k s pieces') : pieces = pieces' := by
  induction h generalizing pieces' with
  | whole s =>
    cases h' with
    | whole => rfl
  | cut hcut _ ih =>
    cases h' with
    | cut hcut' hs' =>
      obtain ⟨rfl, rfl⟩ := hcut.unique hcut'
      rw [ih hs']

/-- The pieces with the word between them are the text. -/
theorem intercalate_eq (h : Cuts word k s pieces) : word.intercalate pieces = s := by
  induction h with
  | whole s => simp
  | cut hcut hs ih => rw [List.intercalate_cons_of_ne_nil hs.ne_nil, ih, hcut.eq]

end Cuts

end FileSharing.Text

namespace FileSharing.Log

variable {form before after : Text} {args : List Text} {n k : Nat}

/-! ### Places -/

/-- How many places there are in a format: at so many of its bytes the mark begins. -/
def places (form : Text) : Nat := form.tails.countP fun s => place <+: s

theorem places_cons (b : UInt8) (form : Text) :
    places (b :: form) = places form + if place <+: b :: form then 1 else 0 := by
  simp [places, List.countP_cons]

/-- A format with a place has one more than what follows its first. -/
theorem places_of_cut (h : Text.cutAt? place form = some (before, after)) :
    places form = places after + 1 := by
  induction form generalizing before with
  | nil => exact absurd h (by simp [Text.cutAt?, Text.stripLeading?, place])
  | cons b form ih =>
    rw [places_cons]
    rw [Text.cutAt?_cons] at h
    cases hstrip : Text.stripLeading? place (b :: form) with
    | some rest =>
      -- the mark begins here, and not at its second byte again
      rw [hstrip] at h
      obtain ⟨-, rfl⟩ := Prod.mk.inj (Option.some.inj h)
      have hform := Text.stripLeading?_eq_some_iff.mp hstrip
      obtain ⟨rfl, rfl⟩ : b = 123 ∧ form = 125 :: rest := by simpa [place] using hform
      rw [if_pos ⟨rest, rfl⟩, places_cons, if_neg (by simp [place])]
    | none =>
      rw [hstrip] at h
      obtain ⟨⟨before', after'⟩, hcut, heq⟩ := Option.map_eq_some_iff.mp h
      obtain ⟨-, rfl⟩ := Prod.mk.inj heq
      rw [if_neg (Text.stripLeading?_eq_none_iff.mp hstrip), ih hcut]

/-- A format without a place is not cut. -/
theorem places_of_no_cut (h : Text.cutAt? place form = none) : places form = 0 := by
  rw [places, List.countP_eq_zero]
  intro s hs hplace
  have hinfix : place <:+: form :=
    (of_decide_eq_true hplace).isInfix.trans ((List.mem_tails _ _).mp hs).isInfix
  exact Text.cutAt?_eq_none_iff.mp h hinfix

/-- **A format is cut once for each place, and no more.** -/
theorem exists_cuts_iff : (∃ pieces, Text.Cuts place k form pieces) ↔ k ≤ places form := by
  induction k generalizing form with
  | zero => exact iff_of_true ⟨_, .whole form⟩ (Nat.zero_le _)
  | succ k ih =>
    constructor
    · rintro ⟨pieces, hcuts⟩
      cases hcuts with
      | cut hcut hs =>
        rw [places_of_cut (Text.cutAt?_eq_some_iff.mpr hcut)]
        have hrest := ih.mp ⟨_, hs⟩
        omega
    · intro hk
      cases hcut : Text.cutAt? place form with
      | none =>
        rw [places_of_no_cut hcut] at hk
        omega
      | some p =>
        obtain ⟨before, after⟩ := p
        rw [places_of_cut hcut] at hk
        obtain ⟨pieces, hs⟩ := ih.mpr (Nat.le_of_succ_le_succ hk)
        exact ⟨before :: pieces, .cut (Text.cutAt?_eq_some_iff.mp hcut) hs⟩

/-! ### Filling -/

/-- Pieces with texts between them, one between each two. -/
def joinedBy : (pieces args : List Text) → Text
  | [], _ => []
  | piece :: pieces, args => piece ++ (List.zipWith (· ++ ·) args pieces).flatten

theorem joinedBy_cons_cons (piece arg : Text) {pieces : List Text} (h : pieces ≠ [])
    (args : List Text) :
    joinedBy (piece :: pieces) (arg :: args) = piece ++ arg ++ joinedBy pieces args := by
  obtain ⟨next, pieces, rfl⟩ := List.exists_cons_of_ne_nil h
  simp [joinedBy]

/-- A format that is cut at its places is filled with the first arguments. -/
theorem format_of_cuts {pieces : List Text}
    (h : Text.Cuts place (min (places form) args.length) form pieces) :
    format form args = joinedBy pieces (args.take (min (places form) args.length)) := by
  induction args generalizing form pieces with
  | nil =>
    rw [List.length_nil, Nat.min_zero] at h
    rw [h.eq_whole]
    simp [format, joinedBy]
  | cons arg args ih =>
    rw [format]
    cases hcut : Text.cutAt? place form with
    | none =>
      rw [places_of_no_cut hcut, Nat.zero_min] at h
      rw [h.eq_whole, places_of_no_cut hcut, Nat.zero_min]
      simp [joinedBy]
    | some p =>
      obtain ⟨before, after⟩ := p
      rw [places_of_cut hcut, List.length_cons, Nat.add_min_add_right] at h ⊢
      cases h with
      | cut hcut' hs =>
        have heq := Text.cutAt?_eq_some_iff.mpr hcut'
        rw [hcut] at heq
        obtain ⟨rfl, rfl⟩ := Prod.mk.inj (Option.some.inj heq)
        dsimp only
        rw [List.take_succ_cons, joinedBy_cons_cons _ _ hs.ne_nil, ih hs]

/-- **A filled format is its pieces joined by the arguments.**  It is cut at its first places, from
the left, as often as it has both a place and an argument; the pieces are the same whatever the
arguments say.  Between the pieces stand the first arguments, in order, in place of the marks;
nothing else of the format is changed, and no other arguments are used. -/
theorem format_fills (form : Text) (n : Nat) :
    (∀ k, (∃ pieces, Text.Cuts place k form pieces) ↔ k ≤ places form) ∧
      ∃ pieces, (∀ ps, Text.Cuts place (min (places form) n) form ps ↔ ps = pieces) ∧
        place.intercalate pieces = form ∧
        ∀ args : List Text, args.length = n →
          format form args = joinedBy pieces (args.take (min (places form) n)) := by
  refine ⟨fun k => exists_cuts_iff, ?_⟩
  obtain ⟨pieces, hcuts⟩ := exists_cuts_iff.mpr (Nat.min_le_left (places form) n)
  refine ⟨pieces, fun ps => ⟨fun h => h.unique hcuts, fun h => h ▸ hcuts⟩, hcuts.intercalate_eq, ?_⟩
  rintro args rfl
  exact format_of_cuts hcuts

/-- A format with braces around its first place: filled with nothing, they look like a place. -/
def braced : Text := 123 :: (place ++ 125 :: place)

theorem format_fills_lookalike :
    let args : List Text := [[], place, "x"]
    args.length = 3 ∧ places braced = 2 ∧ format braced args = place ++ place := by
  intro args
  obtain ⟨-, pieces, hpieces, -, hformat⟩ := format_fills braced 3
  have hcuts : Text.Cuts place (min (places braced) 3) braced [[123], [125], []] := by
    have hfirst : Text.IsCut place braced [123] (125 :: place) :=
      Text.cutAt?_eq_some_iff.mp (by decide)
    have hsecond : Text.IsCut place (125 :: place) [125] [] :=
      Text.cutAt?_eq_some_iff.mp (by decide)
    exact .cut hfirst (.cut hsecond (.whole []))
  have hargs : args.length = 3 := rfl
  refine ⟨hargs, by decide, ?_⟩
  rw [hformat args hargs, ← (hpieces _).mp hcuts]
  decide

end FileSharing.Log
