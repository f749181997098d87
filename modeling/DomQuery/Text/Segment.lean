import DomQuery.Text.Property
import DomQuery.Text.Script

/-!
# Segmentation classes

The classes of characters by which a text is divided into what a reader takes
for a character, into words and into sentences. Every class is made of
categories, scripts and properties and of a few exceptions. Names are in lower
case, without blanks, hyphens and underscores.
-/

namespace DomQuery.Text.CharSet

def ofCode (n : Nat) : CharSet :=
  ofRange n n

/-! ### Classes of more than one kind of segment -/

/-- Marks that stand before a number and count as part of it. -/
def numberSigns : CharSet :=
  (ofPropertyRuns prependedConcatenationMarkRuns).diff (ofCode 0x70F)

/-- What continues the character before it, spacing marks among it. -/
def extendingMarks : CharSet :=
  graphemeExtend.union (ofCategories ["Mc"])

/-- Decimal digits, signs before numbers, and a digit that is no decimal one. -/
def numberParts : CharSet :=
  ((ofCategories ["Nd"]).union numberSigns).union (ofList [(0x66B, 0x66B), (0x19DA, 0x19DA)])

/-- Format characters that neither extend a character nor belong to a number. -/
def plainFormats : CharSet :=
  (ofCategories ["Cf"]).diff ((numberSigns.union graphemeExtend).union (ofCode 0x200D))

def regionalIndicators : CharSet :=
  ofPropertyRuns regionalIndicatorRuns

def lineSeparators : CharSet :=
  ofList [(0x85, 0x85), (0x2028, 0x2029)]

/-! ### Characters as a reader sees them -/

/-- Syllables of a consonant and a vowel come first of every 28. -/
def hangulOpenSyllables : CharSet :=
  ofList ((List.range 399).map fun i => (0xAC00 + 28 * i, 0xAC00 + 28 * i))

def hangulSyllables : CharSet :=
  ofRange 0xAC00 0xD7A3

/-- Spacing marks that stand for themselves. -/
def loneSpacingMarks : CharSet :=
  ofList [
    (0x102B, 0x102C), (0x1038, 0x1038), (0x1062, 0x1064), (0x1067, 0x106D), (0x1083, 0x1083),
    (0x1087, 0x108C), (0x108F, 0x108F), (0x109A, 0x109C), (0x1A61, 0x1A61), (0x1A63, 0x1A64),
    (0xAA7B, 0xAA7B), (0xAA7D, 0xAA7D), (0x11720, 0x11721)]

/-- Controls, and code points that are reserved for being ignored. -/
def graphemeControls : CharSet :=
  let reserved := (ofCategories ["Cn"]).inter defaultIgnorable
  let others := (graphemeExtend.union (ofPropertyRuns prependedConcatenationMarkRuns)).union
    (ofList [(10, 10), (13, 13), (0x200D, 0x200D)])
  ((ofCategories ["Zl", "Zp", "Cc", "Cf"]).union reserved).diff others

/-- Letters and signs that belong to the character after them. -/
def prependedLetters : CharSet :=
  ofList [
    (0xD4E, 0xD4E), (0x111C2, 0x111C3), (0x113D1, 0x113D1), (0x1193F, 0x1193F),
    (0x11941, 0x11941), (0x11A3A, 0x11A3A), (0x11A84, 0x11A89), (0x11D46, 0x11D46),
    (0x11F02, 0x11F02)]

/-- A class for dividing a text into characters, by one of its names. -/
def ofGraphemeBreak? (name : String) : Option CharSet :=
  match name with
  | "cr" => some (ofCode 13)
  | "lf" => some (ofCode 10)
  | "cn" | "control" => some graphemeControls
  | "ex" | "extend" => some (graphemeExtend.union (ofPropertyRuns emojiModifierRuns))
  | "zwj" => some (ofCode 0x200D)
  | "pp" | "prepend" =>
    some ((ofPropertyRuns prependedConcatenationMarkRuns).union prependedLetters)
  | "sm" | "spacingmark" =>
    some ((((ofCategories ["Mc"]).diff graphemeExtend).diff loneSpacingMarks).union
      (ofList [(0xE33, 0xE33), (0xEB3, 0xEB3)]))
  | "ri" | "regionalindicator" => some regionalIndicators
  | "l" => some (ofList [(0x1100, 0x115F), (0xA960, 0xA97C)])
  | "v" =>
    some (ofList [(0x1160, 0x11A7), (0xD7B0, 0xD7C6), (0x16D63, 0x16D63), (0x16D67, 0x16D6A)])
  | "t" => some (ofList [(0x11A8, 0x11FF), (0xD7CB, 0xD7FB)])
  | "lv" => some hangulOpenSyllables
  | "lvt" => some (hangulSyllables.diff hangulOpenSyllables)
  | _ => none

/-! ### Words -/

def hebrewLetters : CharSet :=
  ((ofScript? "hebrew").getD .empty).inter (ofCategories ["Lo"])

def katakanaLetters : CharSet :=
  ((ofScript? "katakana").getD .empty).union
    (ofList [(0x3031, 0x3035), (0x309B, 0x309C), (0x30A0, 0x30A0), (0x30FC, 0x30FC),
      (0xFF70, 0xFF70)])

/-- Scripts that do not divide words by blanks. -/
def unspacedScripts : List String :=
  ["thai", "lao", "myanmar", "khmer", "taile", "newtailue", "taitham", "taiviet", "ahom"]

/-- Symbols and marks that are used as letters. -/
def letterLikeSigns : CharSet :=
  ofList [
    (0x2C2, 0x2C5), (0x2D2, 0x2D7), (0x2DE, 0x2DF), (0x2E5, 0x2EB), (0x2ED, 0x2ED),
    (0x2EF, 0x2FF), (0x55A, 0x55C), (0x55E, 0x55E), (0x58A, 0x58A), (0x5F3, 0x5F3),
    (0x70F, 0x70F), (0xA708, 0xA716), (0xA720, 0xA721), (0xA789, 0xA78A), (0xAB5B, 0xAB5B)]

/-- Letters of words that blanks divide. -/
def wordLetters : CharSet :=
  let scripts := unspacedScripts.filterMap ofScript?
  let others := scripts.foldl union
    ((((ofPropertyRuns ideographicRuns).union katakanaLetters).union
      ((ofScript? "hiragana").getD .empty)).union (extendingMarks.union hebrewLetters))
  (alphabetic.diff others).union letterLikeSigns

/-- Characters that join digits to a number. -/
def midNumber : CharSet :=
  ofList [
    (0x2C, 0x2C), (0x3B, 0x3B), (0x37E, 0x37E), (0x589, 0x589), (0x60C, 0x60D), (0x66C, 0x66C),
    (0x7F8, 0x7F8), (0x2044, 0x2044), (0xFE50, 0xFE50), (0xFE54, 0xFE54), (0xFF0C, 0xFF0C),
    (0xFF1B, 0xFF1B)]

/-- A class for dividing a text into words, by one of its names. -/
def ofWordBreak? (name : String) : Option CharSet :=
  match name with
  | "cr" => some (ofCode 13)
  | "lf" => some (ofCode 10)
  | "newline" | "nl" => some (lineSeparators.union (ofRange 11 12))
  | "extend" => some (extendingMarks.union (ofPropertyRuns emojiModifierRuns))
  | "zwj" => some (ofCode 0x200D)
  | "fo" | "format" => some (plainFormats.diff (ofList [(0x70F, 0x70F), (0x200B, 0x200B)]))
  | "ri" | "regionalindicator" => some regionalIndicators
  | "ka" | "katakana" => some katakanaLetters
  | "hl" | "hebrewletter" => some hebrewLetters
  | "le" | "aletter" => some wordLetters
  | "sq" | "singlequote" => some (singleton '\'')
  | "dq" | "doublequote" => some (singleton '"')
  | "mb" | "midnumlet" => some midNumberLetter
  | "ml" | "midletter" => some midLetter
  | "mn" | "midnum" => some midNumber
  | "nu" | "numeric" => some numberParts
  | "ex" | "extendnumlet" => some ((ofCategories ["Pc"]).union (ofCode 0x202F))
  | "wsegspace" =>
    some ((ofCategories ["Zs"]).diff (ofList [(0xA0, 0xA0), (0x2007, 0x2007), (0x202F, 0x202F)]))
  | _ => none

/-! ### Sentences -/

/-- Full stops that may also stand inside a word. -/
def ambiguousStops : CharSet :=
  ofList [(0x2E, 0x2E), (0x2024, 0x2024), (0xFE52, 0xFE52), (0xFF0E, 0xFF0E)]

/-- Lower case letters; the Georgian ones have no upper case in running text. -/
def sentenceLower : CharSet :=
  (lowercase.diff graphemeExtend).diff (ofList [(0x10D0, 0x10FA), (0x10FD, 0x10FF)])

def sentenceUpper : CharSet :=
  (uppercase.union (ofCategories ["Lt"])).diff (ofRange 0x1C90 0x1CBF)

def sentenceExtend : CharSet :=
  extendingMarks.union (ofCode 0x200D)

/-- Brackets and quotation marks. -/
def closingMarks : CharSet :=
  (((ofCategories ["Ps", "Pe", "Pi", "Pf"]).union (ofPropertyRuns quotationMarkRuns)).union
    (ofList [(0x275B, 0x2760), (0x2E00, 0x2E01), (0x2E06, 0x2E08), (0x2E0B, 0x2E0B),
      (0x1F676, 0x1F678)])).diff (ofList [(0xFF02, 0xFF02), (0xFF07, 0xFF07)])

/-- Commas, colons and dashes. -/
def sentenceContinuers : CharSet :=
  ofList [
    (0x2C, 0x2D), (0x3A, 0x3B), (0x37E, 0x37E), (0x55D, 0x55D), (0x60C, 0x60D), (0x7F8, 0x7F8),
    (0x1802, 0x1802), (0x1808, 0x1808), (0x2013, 0x2014), (0x3001, 0x3001), (0xFE10, 0xFE11),
    (0xFE13, 0xFE14), (0xFE31, 0xFE32), (0xFE50, 0xFE51), (0xFE54, 0xFE55), (0xFE58, 0xFE58),
    (0xFE63, 0xFE63), (0xFF0C, 0xFF0D), (0xFF1A, 0xFF1B), (0xFF64, 0xFF64)]

/-- A class for dividing a text into sentences, by one of its names. -/
def ofSentenceBreak? (name : String) : Option CharSet :=
  match name with
  | "cr" => some (ofCode 13)
  | "lf" => some (ofCode 10)
  | "se" | "sep" => some lineSeparators
  | "ex" | "extend" => some sentenceExtend
  | "fo" | "format" => some plainFormats
  | "sp" => some ((whiteSpace.diff lineSeparators).diff (ofList [(10, 10), (13, 13)]))
  | "lo" | "lower" => some sentenceLower
  | "up" | "upper" => some sentenceUpper
  | "le" | "oletter" =>
    some ((alphabetic.union (ofCode 0x5F3)).diff
      ((sentenceLower.union sentenceUpper).union sentenceExtend))
  | "nu" | "numeric" => some (numberParts.union (ofCode 0x66C))
  | "at" | "aterm" => some ambiguousStops
  | "st" | "sterm" => some ((ofPropertyRuns sentenceTerminalRuns).diff ambiguousStops)
  | "sc" | "scontinue" => some sentenceContinuers
  | "cl" | "close" => some closingMarks
  | _ => none

end DomQuery.Text.CharSet
