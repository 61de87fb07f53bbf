import CommandEngine.Text.Printable
/-!
# Quoted texts and characters

Messages quote the texts they complain about. A quotation is the text between two marks, with a
backslash before the mark and before the backslash itself, short names for the four common
controls, and the hexadecimal code in braces for every other character that is not printable. One
function shows a character given the mark around it, because a text stands between double quotes
and a character between single quotes, and each mark is escaped only inside its own kind.
-/

namespace CommandEngine.Text

/-- A character by its code: a backslash, the letter `u` and the hexadecimal code in braces. -/
def codeForm (c : Char) : List Char :=
  '\\' :: 'u' :: '\x7b' :: (Nat.toDigits 16 c.toNat ++ ['\x7d'])

/-- How a character is shown between two of the given marks. -/
def shownBetween (mark c : Char) : List Char :=
  if c == '\x00' then ['\\', '0']
  else if c == '\t' then ['\\', 't']
  else if c == '\n' then ['\\', 'n']
  else if c == '\r' then ['\\', 'r']
  else if c == '\\' || c == mark then ['\\', c]
  else if isPrintable c then [c]
  else codeForm c

def quoteText (text : String) : String :=
  String.ofList ('\x22' :: (text.toList.flatMap (shownBetween '\x22') ++ ['\x22']))

@[simp]
theorem toList_quoteText (text : String) :
    (quoteText text).toList =
      '\x22' :: (text.toList.flatMap (shownBetween '\x22') ++ ['\x22']) := by
  simp [quoteText]

def quoteChar (c : Char) : String :=
  String.ofList ('\x27' :: (shownBetween '\x27' c ++ ['\x27']))

@[simp]
theorem toList_quoteChar (c : Char) :
    (quoteChar c).toList = '\x27' :: (shownBetween '\x27' c ++ ['\x27']) := by
  simp [quoteChar]

end CommandEngine.Text
