/-!
Wildcards in the names of files. A star stands for any text, a question mark for one character,
and brackets for one character of a set.
-/

namespace AssetBundler

inductive Wildcard where
  | star
  | any
  | literal (c : Char)
  | oneOf (negated : Bool) (singles : List Char) (ranges : List (Char × Char))
  deriving DecidableEq, Repr

namespace Wildcard

/-- The set between brackets and the text behind them. An exclamation mark and a closing bracket
at the start belong to the set. -/
def bracket? (text : List Char) : Option (List Char × List Char) :=
  let mark := (text.take 1).filter (· == '!')
  let first := ((text.drop mark.length).take 1).filter (· == ']')
  let start := mark ++ first
  let rest := text.drop start.length
  match rest.dropWhile (· != ']') with
  | [] => none
  | _ :: behind => some (start ++ rest.takeWhile (· != ']'), behind)

theorem bracket?_length {text content behind : List Char}
    (found : bracket? text = some (content, behind)) : behind.length < text.length := by
  simp only [bracket?] at found
  split at found
  · simp at found
  · rename_i dropped shape
    simp only [Option.some.injEq, Prod.mk.injEq] at found
    have shorter := (List.dropWhile_sublist (· != ']') (l := text.drop
      ((text.take 1).filter (· == '!') ++
        ((text.drop ((text.take 1).filter (· == '!')).length).take 1).filter (· == ']')).length)
      ).length_le
    rw [shape] at shorter
    simp only [List.length_cons, List.length_drop] at shorter
    rw [← found.2]
    omega

/-- A set is cut at the hyphens that can stand for a range. The first cut leaves the given number
of characters before it, and each further one two. -/
def cutAtHyphens (skipped : Nat) (content : List Char) : List (List Char) :=
  match _shape : (content.drop skipped).dropWhile (· != '-') with
  | [] => [content]
  | _ :: rest =>
      let piece := content.take skipped ++ (content.drop skipped).takeWhile (· != '-')
      if rest.isEmpty then [piece ++ ['-']] else piece :: cutAtHyphens 2 rest
  termination_by content.length
  decreasing_by
    have shorter :=
      (List.dropWhile_sublist (· != '-') (l := content.drop skipped)).length_le
    rw [_shape] at shorter
    simp only [List.length_cons, List.length_drop] at shorter
    omega

/-- A range whose start lies behind its end is left out. -/
def dropEmptyRanges (pieces : List (List Char)) : List (List Char) :=
  pieces.foldr (fun piece later =>
      match later with
      | [] => [piece]
      | next :: others =>
          match piece.getLast?, next with
          | some low, high :: more =>
              if high < low then (piece.dropLast ++ more) :: others else piece :: later
          | _, _ => piece :: later)
    []

/-- Between two pieces lies a range. The other characters stand for themselves. -/
def rangesOf : List (List Char) → List (Char × Char)
  | piece :: next :: others =>
      match piece.getLast?, next.head? with
      | some low, some high => (low, high) :: rangesOf (next :: others)
      | _, _ => rangesOf (next :: others)
  | _ => []

/-- Without a character before the first range its hyphen stands for itself. -/
def ofPieces (negated : Bool) (pieces : List (List Char)) : Wildcard :=
  match pieces with
  | [] :: next :: others =>
      .oneOf negated ('-' :: (next :: others).flatten) (rangesOf (next :: others))
  | pieces => .oneOf negated pieces.flatten (rangesOf pieces)

/-- An exclamation mark at the start negates the set. The negated empty set holds everything. -/
def ofSet (content : List Char) : Wildcard :=
  let pieces := dropEmptyRanges (cutAtHyphens (if content.head? = some '!' then 2 else 1) content)
  match pieces with
  | [['!']] => .any
  | ('!' :: piece) :: others => ofPieces true (piece :: others)
  | _ => ofPieces false pieces

/-- A bracket that is never closed stands for itself. -/
def parse (text : List Char) : List Wildcard :=
  match text with
  | [] => []
  | c :: rest =>
      if c = '*' then .star :: parse rest
      else if c = '?' then .any :: parse rest
      else if c = '[' then
        match _found : bracket? rest with
        | some (content, behind) => ofSet content :: parse behind
        | none => .literal c :: parse rest
      else .literal c :: parse rest
  termination_by text.length
  decreasing_by
    all_goals simp only [List.length_cons]
    · omega
    · omega
    · exact Nat.lt_succ_of_lt (bracket?_length (by assumption))
    · omega
    · omega

/-- Whether a wildcard stands for a character. -/
def admits (wildcard : Wildcard) (c : Char) : Bool :=
  match wildcard with
  | .star => true
  | .any => true
  | .literal expected => c == expected
  | .oneOf negated singles ranges =>
      negated != (singles.contains c || ranges.any fun range => range.1 ≤ c && c ≤ range.2)

/-- For each place whether it or a later one holds. -/
def anyLater : List Bool → List Bool
  | [] => []
  | here :: rest =>
      let later := anyLater rest
      (here || later.headD false) :: later

/-- For each end of the text, the longest first, whether the wildcards stand for it. One wildcard
is dealt with after the other, so the work grows with the text and not with the ways to divide
it. -/
def fitsEnds (text : List Char) : List Wildcard → List Bool
  | [] => text.map (fun _ => false) ++ [true]
  | wildcard :: rest =>
      let ends := fitsEnds text rest
      if wildcard = .star then anyLater ends
      else List.zipWith (fun c fitting => wildcard.admits c && fitting) text ends.tail ++ [false]

/-- Whether the wildcards stand for the whole text. -/
def fits (wildcards : List Wildcard) (text : List Char) : Bool :=
  (fitsEnds text wildcards).headD false

theorem fitsEnds_nil (wildcards : List Wildcard) :
    fitsEnds [] wildcards = [wildcards.all (· = .star)] := by
  induction wildcards with
  | nil => rfl
  | cons wildcard rest inductionHypothesis =>
      by_cases star : wildcard = .star <;>
        simp [fitsEnds, inductionHypothesis, star, anyLater]

theorem fitsEnds_ne_nil (text : List Char) (wildcards : List Wildcard) :
    fitsEnds text wildcards ≠ [] := by
  cases wildcards with
  | nil => simp [fitsEnds]
  | cons wildcard rest =>
      cases ends : fitsEnds text rest with
      | nil => exact absurd ends (fitsEnds_ne_nil text rest)
      | cons here later =>
          by_cases star : wildcard = .star <;> simp [fitsEnds, ends, star, anyLater]

/-- The ends of a text are the text itself and the ends of its rest. -/
theorem fitsEnds_cons (wildcards : List Wildcard) (c : Char) (more : List Char) :
    fitsEnds (c :: more) wildcards = fits wildcards (c :: more) :: fitsEnds more wildcards := by
  suffices shape : ∃ here, fitsEnds (c :: more) wildcards = here :: fitsEnds more wildcards by
    obtain ⟨here, shape⟩ := shape
    simp only [fits, shape, List.headD_cons]
  induction wildcards with
  | nil => exact ⟨false, by simp [fitsEnds]⟩
  | cons wildcard rest inductionHypothesis =>
      obtain ⟨here, shape⟩ := inductionHypothesis
      by_cases star : wildcard = .star
      · exact ⟨here || (anyLater (fitsEnds more rest)).headD false, by
          simp [fitsEnds, shape, star, anyLater]⟩
      · cases ends : fitsEnds more rest with
        | nil => exact absurd ends (fitsEnds_ne_nil more rest)
        | cons next later =>
            exact ⟨wildcard.admits c && next, by simp [fitsEnds, shape, star, ends]⟩

theorem fits_nil (wildcards : List Wildcard) :
    fits wildcards [] = wildcards.all (· = .star) := by
  simp [fits, fitsEnds_nil]

theorem fits_empty (text : List Char) : fits [] text = text.isEmpty := by
  cases text <;> simp [fits, fitsEnds]

/-- A star stands for nothing, or for one character more. -/
theorem fits_star (rest : List Wildcard) (c : Char) (more : List Char) :
    fits (.star :: rest) (c :: more) = (fits rest (c :: more) || fits (.star :: rest) more) := by
  obtain ⟨here, shape⟩ : ∃ here, fitsEnds (c :: more) rest = here :: fitsEnds more rest :=
    ⟨_, fitsEnds_cons rest c more⟩
  simp [fits, fitsEnds, shape, anyLater]

/-- Any other wildcard stands for the first character. -/
theorem fits_cons {wildcard : Wildcard} (single : wildcard ≠ .star) (rest : List Wildcard)
    (c : Char) (more : List Char) :
    fits (wildcard :: rest) (c :: more) = (wildcard.admits c && fits rest more) := by
  obtain ⟨here, shape⟩ : ∃ here, fitsEnds (c :: more) rest = here :: fitsEnds more rest :=
    ⟨_, fitsEnds_cons rest c more⟩
  cases ends : fitsEnds more rest with
  | nil => exact absurd ends (fitsEnds_ne_nil more rest)
  | cons next later => simp [fits, fitsEnds, single, shape, ends]

/-- A text with none of these characters stands only for itself. -/
def isMagic (text : String) : Bool :=
  text.toList.any fun c => c == '*' || c == '?' || c == '['

def matchesName (pattern name : String) : Bool := fits (parse pattern.toList) name.toList

end Wildcard

end AssetBundler
