import MailMerge.Text.Chinese
import MailMerge.Text.Japanese
import MailMerge.Text.Korean
import MailMerge.Text.TraditionalChinese

/-!
# Encodings with pairs of bytes

Encodings that give a character one byte or two: the lower half of the bytes has the
ASCII characters, and two bytes are the number of a cell of a character set. Larger encodings fill
the room that such a set leaves with what it lacks, in the order of code points.
-/

namespace MailMerge.Text

/-- An encoding with characters of one byte and of two. -/
structure DoubleByte where
  /-- What the encoding is called, in small letters. -/
  names : List String
  /-- The character of a byte that stands alone. -/
  single? : UInt8 → Option Char
  /-- The character of two bytes. -/
  pair? : UInt8 → UInt8 → Option Char

namespace DoubleByte

/-- What stands in a cell that has no character. -/
def blank : Char := '\ufffd'

/-- The cells of a character set that is given in stretches. -/
def fill (cells : Array Char) (stretches : List (Nat × String)) : Array Char :=
  let put (cells : Array Char × Nat) (c : Char) : Array Char × Nat :=
    (cells.1.setIfInBounds cells.2 c, cells.2 + 1)
  stretches.foldl (fun cells (first, text) => (text.toList.foldl put (cells, first)).1) cells

def cellsOf (size : Nat) (stretches : List (Nat × String)) : Array Char :=
  fill (Array.replicate size blank) stretches

def cell? (cells : Array Char) (n : Nat) : Option Char := cells[n]?.filter (· ≠ blank)

def ascii? (b : UInt8) : Option Char := if b < 0x80 then some (Char.ofNat b.toNat) else none

/-! ## Rows of 94 -/

/-- The number of a cell in rows of 94 by two bytes of the upper half. -/
def upperCell? (a b : UInt8) : Option Nat :=
  if 0xa1 ≤ a ∧ a ≤ 0xfe ∧ 0xa1 ≤ b ∧ b ≤ 0xfe then
    some ((a.toNat - 0xa1) * 94 + (b.toNat - 0xa1))
  else none

/-- The number of cells in 94 rows of 94. -/
def squareSize : Nat := 94 * 94

def japaneseCells : Array Char := cellsOf squareSize japanese

def chineseCells : Array Char := cellsOf squareSize simplifiedChinese

def koreanCells : Array Char := cellsOf squareSize korean

def upperPair? (cells : Array Char) (a b : UInt8) : Option Char :=
  (upperCell? a b).bind (cell? cells)

/-- The narrow kana, the first of which has the byte `0xa1`. -/
def narrowKana? (b : UInt8) : Option Char :=
  if 0xa1 ≤ b ∧ b ≤ 0xdf then some (Char.ofNat (b.toNat - 0xa1 + 0xff61)) else none

/-- Japanese in the upper half of the bytes; narrow kana stand behind a byte that says so. -/
def upperJapanese : DoubleByte where
  names := ["euc-jp", "eucjp", "extended_unix_code_packed_format_for_japanese",
    "cseucpkdfmtjapanese"]
  single? := ascii?
  pair? a b := if a = 0x8e then narrowKana? b else upperPair? japaneseCells a b

def upperChinese : DoubleByte where
  names := ["gb2312", "euc-cn", "euccn", "cn-gb", "csgb2312"]
  single? := ascii?
  pair? := upperPair? chineseCells

def upperKorean : DoubleByte where
  names := ["euc-kr", "euckr", "cseuckr"]
  single? := ascii?
  pair? := upperPair? koreanCells

/-! ## Shifted rows -/

/-- The bytes that the first of two can be, each of which has two rows, and the number of the first
row. -/
def shiftedRow? (a : UInt8) : Option Nat :=
  if 0x81 ≤ a ∧ a ≤ 0x9f then some (2 * (a.toNat - 0x81))
  else if 0xe0 ≤ a ∧ a ≤ 0xfc then some (2 * (a.toNat - 0xc1))
  else none

/-- The place in two rows that the second of two bytes gives. -/
def shiftedPlace? (b : UInt8) : Option Nat :=
  if 0x40 ≤ b ∧ b ≤ 0x7e then some (b.toNat - 0x40)
  else if 0x80 ≤ b ∧ b ≤ 0xfc then some (b.toNat - 0x41)
  else none

/-- The first byte of rows that users fill, and the code point of their first cell. -/
def userRow : UInt8 := 0xf0

def shiftedPair? (cells : Array Char) (a b : UInt8) : Option Char := do
  let row ← shiftedRow? a
  let place ← shiftedPlace? b
  if userRow ≤ a ∧ a < userRow + 10 then
    some (Char.ofNat (0xe000 + 188 * (a - userRow).toNat + place))
  else cell? cells (row * 94 + place)

/-- The single bytes of an alphabet in which a yen sign and a line above stand for two signs. -/
def romanOrKana? (b : UInt8) : Option Char :=
  if b = 0x5c then some '¥' else if b = 0x7e then some '‾' else (ascii? b).or (narrowKana? b)

def shiftedJapanese : DoubleByte where
  names := ["shift_jis", "shift-jis", "sjis", "ms_kanji", "csshiftjis"]
  single? := romanOrKana?
  pair? := shiftedPair? japaneseCells

def desktopCells : Array Char := fill (cellsOf (120 * 94) japanese) desktopJapanese

def shiftedDesktop : DoubleByte where
  names := ["cp932", "ms932", "windows-932", "windows-31j", "cswindows31j"]
  single? b := (ascii? b).or (narrowKana? b)
  pair? := shiftedPair? desktopCells

/-! ## Larger sets -/

/-- Whether each of the code points from `first` on is in none of the cells. -/
def isMissing (cells : Array Char) (first count : Nat) : Array Bool :=
  cells.foldl (fun missing c => if c.toNat < first then missing
    else missing.setIfInBounds (c.toNat - first) false) (Array.replicate count true)

/-- The characters of `count` code points from `first` on that are in none of the cells. -/
def missing (cells : Array Char) (first count : Nat) : Array Char :=
  let missing := isMissing cells first count
  ((Array.range count).filter fun n => missing.getD n false).map fun n => Char.ofNat (first + n)

/-- The hanzi that the smaller set of simplified Chinese lacks. -/
def otherHanzi : Array Char :=
  missing chineseCells 0x4e00 20902 ++
    (fill (Array.replicate 21 blank) [
      (0, "\uf92c\uf979\uf995\uf9e7\uf9f1\ufa0c\ufa0d\ufa0e\ufa0f\ufa11\ufa13\ufa14"),
      (12, "\ufa18\ufa1f\ufa20\ufa21\ufa23\ufa24\ufa27\ufa28\ufa29")])

/-- Signs in the rows of the smaller set, in the place of others or of none. -/
def largeSigns : List (Nat × String) := [
  (3, "·"),
  (9, "—"),
  (94, "ⅰⅱⅲⅳⅴⅵⅶⅷⅸⅹ"),
  (533, "︵︶︹︺︿﹀︽︾﹁﹂﹃﹄"),
  (547, "︻︼︷︸︱"),
  (553, "︳︴"),
  (684, "ɑ"),
  (686, "ńň"),
  (689, "ɡ")]

/-- Signs in two rows of 96 in front of those of the smaller set. -/
def signsBefore : List (Nat × String) := [
  (0, "ˊˋ˙–―‥‵℅℉↖↗↘↙∕∟∣≒≦≧⊿═║╒╓╔╕╖╗╘╙╚╛╜╝╞╟╠╡╢╣╤╥╦╧╨╩╪╫╬╭╮╯╰╱╲╳▁▂▃▄▅▆▇█▉▊▋▌▍▎▏▓▔▕▼▽◢◣◤◥☉⊕〒〝〞"),
  (96, "〡〢〣〤〥〦〧〨〩㊣㎎㎏㎜㎝㎞㎡㏄㏎㏑㏒㏕︰￢￤"),
  (121, "℡㈱"),
  (124, "‐"),
  (128, "ー゛゜ヽヾ〆ゝゞ﹉﹊﹋﹌﹍﹎﹏﹐﹑﹒﹔﹕﹖﹗﹙﹚﹛﹜﹝﹞﹟﹠﹡﹢﹣﹤﹥﹦﹨﹩﹪﹫"),
  (181, "〇")]

def largeCells : Array Char := fill chineseCells largeSigns

def beforeCells : Array Char := cellsOf (2 * 96) signsBefore

/-- The place in a row that the second of two bytes gives. -/
def largePlace? (b : UInt8) : Option Nat :=
  if 0x40 ≤ b ∧ b ≤ 0x7e then some (b.toNat - 0x40)
  else if 0x80 ≤ b ∧ b ≤ 0xfe then some (b.toNat - 0x41)
  else none

def largeChinese? (a b : UInt8) : Option Char := do
  let place ← largePlace? b
  let n := a.toNat
  if 0x81 ≤ a ∧ a ≤ 0xa0 then otherHanzi[(n - 0x81) * 190 + place]?
  else if 96 ≤ place then upperPair? largeCells a b
  else if 0xaa ≤ a ∧ a ≤ 0xfe then otherHanzi[0x20 * 190 + (n - 0xaa) * 96 + place]?
  else if 0xa8 ≤ a ∧ a ≤ 0xa9 then cell? beforeCells ((n - 0xa8) * 96 + place)
  else none

def largeChinese : DoubleByte where
  names := ["gbk"]
  single? := ascii?
  pair? := largeChinese?

def desktopChinese : DoubleByte where
  names := ["cp936", "ms936", "windows-936"]
  single? b := if b = 0x80 then some '€' else ascii? b
  pair? := largeChinese?

/-- The hangul syllables that the smaller set lacks. -/
def otherSyllables : Array Char := missing koreanCells 0xac00 11172

/-- How many second bytes there are in a row of syllables. -/
def syllableRowSize (a : UInt8) : Nat := if a ≤ 0xa0 then 178 else 84

def syllablePlace? (b : UInt8) : Option Nat :=
  if 0x41 ≤ b ∧ b ≤ 0x5a then some (b.toNat - 0x41)
  else if 0x61 ≤ b ∧ b ≤ 0x7a then some (b.toNat - 0x61 + 26)
  else if 0x81 ≤ b ∧ b ≤ 0xfe then some (b.toNat - 0x81 + 52)
  else none

def largeKorean? (a b : UInt8) : Option Char :=
  match upperPair? koreanCells a b with
  | some c => some c
  | none => do
    let place ← syllablePlace? b
    if a < 0x81 ∨ 0xc8 < a ∨ syllableRowSize a ≤ place then none
    else
      let first := if a ≤ 0xa0 then (a.toNat - 0x81) * 178
        else 0x20 * 178 + (a.toNat - 0xa1) * 84
      otherSyllables[first + place]?

def largeKorean : DoubleByte where
  names := ["cp949", "uhc"]
  single? := ascii?
  pair? := largeKorean?

/-! ## Rows of 157 -/

def traditionalCells : Array Char := cellsOf (89 * 157) traditionalChinese

def traditional? (cells : Array Char) (a b : UInt8) : Option Char :=
  if a < 0xa1 then none
  else if 0x40 ≤ b ∧ b ≤ 0x7e then cell? cells ((a.toNat - 0xa1) * 157 + (b.toNat - 0x40))
  else if 0xa1 ≤ b ∧ b ≤ 0xfe then cell? cells ((a.toNat - 0xa1) * 157 + (b.toNat - 0xa1) + 63)
  else none

def traditional : DoubleByte where
  names := ["big5", "big-5", "big-five", "bigfive", "cn-big5", "csbig5"]
  single? := ascii?
  pair? := traditional? traditionalCells

/-- Signs and hanzi in the place of others or of none. -/
def desktopSigns : List (Nat × String) := [
  (5, "‧"),
  (14, "﹑"),
  (96, "¯"),
  (129, "～"),
  (144, "⊕⊙"),
  (158, "∕﹨"),
  (161, "￥"),
  (163, "￠￡"),
  (441, "€"),
  (13932, "碁銹裏墻恒粧嫺╔╦╗╠╬╣╚╩╝╒╤╕╞╪╡╘╧╛╓╥╖╟╫╢╙╨╜║═╭╮╰╯▓")]

def desktopTraditionalCells : Array Char := fill traditionalCells desktopSigns

def desktopTraditional : DoubleByte where
  names := ["cp950"]
  single? := ascii?
  pair? := traditional? desktopTraditionalCells

/-- The characters that the set of Hong Kong shares with the common one; the cells of other signs
and of kana are not among them. -/
def sharedTraditional : DoubleByte where
  names := [
    "big5-hkscs", "big5hkscs", "big5-hkscs:1999", "big5-hkscs:2001", "big5-hkscs:2004",
    "big5-hkscs:2008"]
  single? := ascii?
  pair? a b :=
    if (a = 0xc6 ∧ 0xa1 ≤ b) ∨ (0xc7 ≤ a ∧ a ≤ 0xc8) then none
    else traditional? traditionalCells a b

/-! ## Reading -/

def all : List DoubleByte := [
  upperJapanese, upperChinese, upperKorean, shiftedJapanese, shiftedDesktop, largeChinese,
  desktopChinese, largeKorean, traditional, desktopTraditional,
  sharedTraditional]

def named? (name : String) : Option DoubleByte := all.find? (name ∈ ·.names)

/-- The text of the bytes, unless some of them have no character. -/
def decode? (encoding : DoubleByte) : List UInt8 → Option (List Char)
  | [] => some []
  | a :: rest =>
    match encoding.single? a with
    | some c => (c :: ·) <$> decode? encoding rest
    | none => match rest with
      | b :: rest => do
        let c ← encoding.pair? a b
        return c :: (← decode? encoding rest)
      | [] => none

/-! ## Four bytes -/

/-- Runs of code points that no two bytes stand for: the number of the first one among these, and
its code point. -/
def otherRuns : List (Nat × Nat) := [
  (0, 0x80), (36, 0xa5), (38, 0xa9), (45, 0xb2), (50, 0xb8), (81, 0xd8), (89, 0xe2), (95, 0xeb),
  (96, 0xee), (100, 0xf4), (103, 0xf8), (104, 0xfb), (105, 0xfd), (109, 0x102), (126, 0x114),
  (133, 0x11c), (148, 0x12c), (172, 0x145), (175, 0x149), (179, 0x14e), (208, 0x16c), (306, 0x1cf),
  (307, 0x1d1), (308, 0x1d3), (309, 0x1d5), (310, 0x1d7), (311, 0x1d9), (312, 0x1db), (313, 0x1dd),
  (341, 0x1fa), (428, 0x252), (443, 0x262), (544, 0x2c8), (545, 0x2cc), (558, 0x2da), (741, 0x3a2),
  (742, 0x3aa), (749, 0x3c2), (750, 0x3ca), (805, 0x402), (819, 0x450), (820, 0x452),
  (7922, 0x2011), (7924, 0x2017), (7925, 0x201a), (7927, 0x201e), (7934, 0x2027), (7943, 0x2031),
  (7944, 0x2034), (7945, 0x2036), (7950, 0x203c), (8062, 0x20ad), (8148, 0x2104), (8149, 0x2106),
  (8152, 0x210a), (8164, 0x2117), (8174, 0x2122), (8236, 0x216c), (8240, 0x217a), (8262, 0x2194),
  (8264, 0x219a), (8374, 0x2209), (8380, 0x2210), (8381, 0x2212), (8384, 0x2216), (8388, 0x221b),
  (8390, 0x2221), (8392, 0x2224), (8393, 0x2226), (8394, 0x222c), (8396, 0x222f), (8401, 0x2238),
  (8406, 0x223e), (8416, 0x2249), (8419, 0x224d), (8424, 0x2253), (8437, 0x2262), (8439, 0x2268),
  (8445, 0x2270), (8482, 0x2296), (8485, 0x229a), (8496, 0x22a6), (8521, 0x22c0), (8603, 0x2313),
  (8936, 0x246a), (8946, 0x249c), (9046, 0x254c), (9050, 0x2574), (9063, 0x2590), (9066, 0x2596),
  (9076, 0x25a2), (9092, 0x25b4), (9100, 0x25be), (9108, 0x25c8), (9111, 0x25cc), (9113, 0x25d0),
  (9131, 0x25e6), (9162, 0x2607), (9164, 0x260a), (9218, 0x2641), (9219, 0x2643), (11329, 0x2e82),
  (11331, 0x2e85), (11334, 0x2e89), (11336, 0x2e8d), (11346, 0x2e98), (11361, 0x2ea8),
  (11363, 0x2eab), (11366, 0x2eaf), (11370, 0x2eb4), (11372, 0x2eb8), (11375, 0x2ebc),
  (11389, 0x2ecb), (11682, 0x2ffc), (11686, 0x3004), (11687, 0x3018), (11692, 0x301f),
  (11694, 0x302a), (11714, 0x303f), (11716, 0x3094), (11723, 0x309f), (11725, 0x30f7),
  (11730, 0x30ff), (11736, 0x312a), (11982, 0x322a), (11989, 0x3232), (12102, 0x32a4),
  (12336, 0x3390), (12348, 0x339f), (12350, 0x33a2), (12384, 0x33c5), (12393, 0x33cf),
  (12395, 0x33d3), (12397, 0x33d6), (12510, 0x3448), (12553, 0x3474), (12851, 0x359f),
  (12962, 0x360f), (12973, 0x361b), (13738, 0x3919), (13823, 0x396f), (13919, 0x39d1),
  (13933, 0x39e0), (14080, 0x3a74), (14298, 0x3b4f), (14585, 0x3c6f), (14698, 0x3ce1),
  (15583, 0x4057), (15847, 0x4160), (16318, 0x4338), (16434, 0x43ad), (16438, 0x43b2),
  (16481, 0x43de), (16729, 0x44d7), (17102, 0x464d), (17122, 0x4662), (17315, 0x4724),
  (17320, 0x472a), (17402, 0x477d), (17418, 0x478e), (17859, 0x4948), (17909, 0x497b),
  (17911, 0x497e), (17915, 0x4984), (17916, 0x4987), (17936, 0x499c), (17939, 0x49a0),
  (17961, 0x49b8), (18664, 0x4c78), (18703, 0x4ca4), (18814, 0x4d1a), (18962, 0x4daf),
  (19043, 0x9fa6), (33469, 0xe76c), (33470, 0xe7c8), (33471, 0xe7e7), (33484, 0xe815),
  (33485, 0xe819), (33490, 0xe81f), (33497, 0xe827), (33501, 0xe82d), (33505, 0xe833),
  (33513, 0xe83c), (33520, 0xe844), (33536, 0xe856), (33550, 0xe865), (37845, 0xf92d),
  (37921, 0xf97a), (37948, 0xf996), (38029, 0xf9e8), (38038, 0xf9f2), (38064, 0xfa10),
  (38065, 0xfa12), (38066, 0xfa15), (38069, 0xfa19), (38075, 0xfa22), (38076, 0xfa25),
  (38078, 0xfa2a), (39108, 0xfe32), (39109, 0xfe45), (39113, 0xfe53), (39114, 0xfe58),
  (39115, 0xfe67), (39116, 0xfe6c), (39265, 0xff5f), (39394, 0xffe6)]

/-- How many code points of the first plane have four bytes, and the number of the first one beyond
it. -/
def otherCount : Nat := 39420

def beyondFirst : Nat := 189000

/-- The character with a number among those that have four bytes. -/
def other? (n : Nat) : Option Char :=
  if beyondFirst ≤ n then
    let code := 0x10000 + (n - beyondFirst)
    if code.isValidChar then some (Char.ofNat code) else none
  else if otherCount ≤ n then none
  else ((otherRuns.takeWhile fun run => run.1 ≤ n).getLast?).map fun run =>
    Char.ofNat (run.2 + (n - run.1))

/-- The number that four bytes stand for. -/
def fourNumber? (a b c d : UInt8) : Option Nat :=
  let isDigit (b : UInt8) : Bool := 0x30 ≤ b && b ≤ 0x39
  if 0x81 ≤ a ∧ isDigit b ∧ 0x81 ≤ c ∧ isDigit d then
    some ((((a.toNat - 0x81) * 10 + (b.toNat - 0x30)) * 126 + (c.toNat - 0x81)) * 10 +
      (d.toNat - 0x30))
  else none

/-- The text of bytes of the large Chinese set with all other characters in four bytes. -/
def decodeFour? : List UInt8 → Option (List Char)
  | [] => some []
  | [a] => ([·]) <$> ascii? a
  | a :: b :: rest =>
    if a < 0x80 then (Char.ofNat a.toNat :: ·) <$> decodeFour? (b :: rest)
    else match largeChinese? a b with
      | some c => (c :: ·) <$> decodeFour? rest
      | none => match rest with
        | c :: d :: rest => do
          let c ← (fourNumber? a b c d).bind other?
          return c :: (← decodeFour? rest)
        | _ => none

end DoubleByte

end MailMerge.Text
