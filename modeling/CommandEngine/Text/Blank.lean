/-!
# Blank characters and trimmed texts

A blank is a character of the Unicode property `White_Space`: the five controls from tab to carriage
return, the space, the next-line control, and the spaces and line separators of the later blocks.
The class is wider than the ASCII one, and every text operation of this library that trims or asks
whether a text is blank goes through `isBlank`, so there is one notion of blank throughout.

Trimming works on characters, where it is two `dropWhile`s; the text version only changes the
representation. A text trims to nothing exactly when it is blank.
-/

namespace CommandEngine.Text

/-- Whether a character has the Unicode property `White_Space`. -/
def isBlank (c : Char) : Bool :=
  let code := c.toNat
  (0x9 ≤ code && code ≤ 0xd) || code == 0x20 || code == 0x85 || code == 0xa0 || code == 0x1680 ||
    (0x2000 ≤ code && code ≤ 0x200a) || code == 0x2028 || code == 0x2029 || code == 0x202f ||
    code == 0x205f || code == 0x3000

/-- The characters without the blanks at either end. -/
def trimChars (cs : List Char) : List Char :=
  ((cs.dropWhile isBlank).reverse.dropWhile isBlank).reverse

/-- The text without the blanks at either end. -/
def trim (text : String) : String := String.ofList (trimChars text.toList)

@[simp]
theorem toList_trim (text : String) : (trim text).toList = trimChars text.toList := by
  simp [trim]

/-- Whether a text has no character but blanks. -/
def isBlankText (text : String) : Bool := text.toList.all isBlank

@[simp]
theorem isBlankText_empty : isBlankText "" = true := rfl

/-- Dropping blanks from the front leaves nothing exactly when there is nothing else. -/
theorem dropWhile_isBlank_eq_nil_iff {cs : List Char} :
    cs.dropWhile isBlank = [] ↔ cs.all isBlank = true := by
  induction cs with
  | nil => simp
  | cons c rest ih => by_cases blank : isBlank c <;> simp [blank, ih]

/-- Characters trim to nothing exactly when all of them are blank. -/
theorem trimChars_eq_nil_iff {cs : List Char} : trimChars cs = [] ↔ cs.all isBlank = true := by
  rw [trimChars, List.reverse_eq_nil_iff, dropWhile_isBlank_eq_nil_iff, List.all_reverse]
  constructor
  · intro blank
    rw [← dropWhile_isBlank_eq_nil_iff]
    by_cases gone : cs.dropWhile isBlank = []
    · exact gone
    · have first := List.head_dropWhile_not isBlank gone
      rw [List.all_eq_true] at blank
      simp [blank _ (List.head_mem gone)] at first
  · intro blank
    simp [dropWhile_isBlank_eq_nil_iff.2 blank]

/-- A text trims to nothing exactly when it is blank. -/
theorem trim_eq_empty_iff {text : String} : trim text = "" ↔ isBlankText text = true := by
  rw [← String.toList_inj, toList_trim, isBlankText, ← trimChars_eq_nil_iff]
  simp

/-- Whether a text neither starts nor ends with a blank. -/
def isTrimmed (text : String) : Bool :=
  text.toList.head?.all (!isBlank ·) && text.toList.getLast?.all (!isBlank ·)

private theorem dropWhile_isBlank_eq_self {cs : List Char}
    (shown : cs.head?.all (!isBlank ·) = true) :
    cs.dropWhile isBlank = cs := by
  cases cs with
  | nil => rfl
  | cons c rest =>
      rw [List.head?_cons, Option.all_some, Bool.not_eq_true'] at shown
      rw [List.dropWhile_cons, shown, if_neg (by decide)]

/-- Trimming changes nothing when there are no blanks at either end. -/
theorem trim_of_isTrimmed {text : String} (trimmed : isTrimmed text = true) :
    trim text = text := by
  rw [isTrimmed, Bool.and_eq_true] at trimmed
  obtain ⟨first, last⟩ := trimmed
  have hlast : text.toList.reverse.dropWhile isBlank = text.toList.reverse :=
    dropWhile_isBlank_eq_self (by rwa [List.head?_reverse])
  rw [trim, trimChars, dropWhile_isBlank_eq_self first, hlast, List.reverse_reverse,
    String.ofList_toList]

/-- What is left after dropping blanks from the front does not start with one. -/
theorem all_head?_dropWhile_isBlank (cs : List Char) :
    (cs.dropWhile isBlank).head?.all (!isBlank ·) = true := by
  have first := List.head?_dropWhile_not isBlank cs
  cases hhead : (cs.dropWhile isBlank).head? with
  | none => rfl
  | some c =>
      rw [hhead] at first
      simpa using first

/-- There are no blanks at the ends of a trimmed text. -/
theorem isTrimmed_trim (text : String) : isTrimmed (trim text) = true := by
  have first := all_head?_dropWhile_isBlank text.toList
  have last := all_head?_dropWhile_isBlank (text.toList.dropWhile isBlank).reverse
  -- Dropping blanks from the back keeps the first character, unless it drops all of them.
  obtain ⟨back, hback⟩ : trimChars text.toList <+: text.toList.dropWhile isBlank := by
    rw [trimChars, ← List.reverse_suffix, List.reverse_reverse]
    exact List.dropWhile_suffix isBlank
  rw [isTrimmed, toList_trim, Bool.and_eq_true]
  constructor
  · cases hfirst : (trimChars text.toList).head? with
    | none => rfl
    | some c =>
        rw [← hback, List.head?_append, hfirst] at first
        exact first
  · rw [trimChars, List.getLast?_reverse]
    exact last

end CommandEngine.Text
