/-!
# Code pages

Encodings that give each byte one character: the lower half of the bytes has the ASCII characters,
and a table has the characters of the others.
-/

namespace MailMerge.Text

/-- An encoding of single bytes by a table. -/
structure CodePage where
  /-- What the encoding is called, in small letters. -/
  names : List String
  /-- The byte that the table begins with; a smaller one is the number of its character. -/
  first : Nat
  /-- The characters from `first` on, `'\ufffd'` where a byte has none. -/
  rows : List String
  /-- Marks that become one with a character in front of them: each with the characters, and with
  what it makes of these. -/
  marks : List (Char × String × String) := []

namespace CodePage

def table (page : CodePage) : Array Char := (page.rows.flatMap String.toList).toArray

/-- The character that a mark makes of the one in front of it, if it makes one. -/
def join? (page : CodePage) (c mark : Char) : Option Char := do
  let (_, letters, joined) ← page.marks.find? fun m => m.1 = mark
  joined.toList[(← letters.toList.idxOf? c)]?

/-- A text with `before` in front, in which marks are one with what they belong to. -/
def joinMarks (page : CodePage) (before : Char) : List Char → List Char
  | [] => [before]
  | c :: rest => match page.join? before c with
    | some joined => joinMarks page joined rest
    | none => before :: joinMarks page c rest

/-- The text of the bytes, unless one of them has no character. -/
def decode? (page : CodePage) (bytes : List UInt8) : Option (List Char) := do
  let table := page.table
  let cs ← bytes.mapM fun (b : UInt8) =>
    if b.toNat < page.first then some (Char.ofNat b.toNat)
    else table[b.toNat - page.first]?.filter (· ≠ '\ufffd')
  match page.marks, cs with
  | _ :: _, first :: rest => return joinMarks page first rest
  | _, _ => return cs

/-- Latin letters of central Europe. -/
def iso8859Part2 : CodePage where
  names := [
    "iso-8859-2", "iso_8859-2", "iso8859-2", "iso-ir-101", "latin2", "l2", "csisolatin2",
    "iso-latin-2"]
  first := 0xa0
  rows := [
    "\u00a0Ą˘Ł¤ĽŚ§¨ŠŞŤŹ\u00adŽŻ°ą˛ł´ľśˇ¸šşťź˝žż",
    "ŔÁÂĂÄĹĆÇČÉĘËĚÍÎĎĐŃŇÓÔŐÖ×ŘŮÚŰÜÝŢß",
    "ŕáâăäĺćçčéęëěíîďđńňóôőö÷řůúűüýţ˙"]

/-- Latin letters of southern Europe. -/
def iso8859Part3 : CodePage where
  names := ["iso-8859-3", "iso_8859-3", "iso8859-3", "iso-ir-109", "latin3", "l3", "csisolatin3"]
  first := 0xa0
  rows := [
    "\u00a0Ħ˘£¤\ufffdĤ§¨İŞĞĴ\u00ad\ufffdŻ°ħ²³´µĥ·¸ışğĵ½\ufffdż",
    "ÀÁÂ\ufffdÄĊĈÇÈÉÊËÌÍÎÏ\ufffdÑÒÓÔĠÖ×ĜÙÚÛÜŬŜß",
    "àáâ\ufffdäċĉçèéêëìíîï\ufffdñòóôġö÷ĝùúûüŭŝ˙"]

/-- Latin letters of northern Europe. -/
def iso8859Part4 : CodePage where
  names := ["iso-8859-4", "iso_8859-4", "iso8859-4", "iso-ir-110", "latin4", "l4", "csisolatin4"]
  first := 0xa0
  rows := [
    "\u00a0ĄĸŖ¤ĨĻ§¨ŠĒĢŦ\u00adŽ¯°ą˛ŗ´ĩļˇ¸šēģŧŊžŋ",
    "ĀÁÂÃÄÅÆĮČÉĘËĖÍÎĪĐŅŌĶÔÕÖ×ØŲÚÛÜŨŪß",
    "āáâãäåæįčéęëėíîīđņōķôõö÷øųúûüũū˙"]

/-- Cyrillic letters. -/
def iso8859Part5 : CodePage where
  names := ["iso-8859-5", "iso_8859-5", "iso8859-5", "iso-ir-144", "cyrillic",
    "csisolatincyrillic"]
  first := 0xa0
  rows := [
    "\u00a0ЁЂЃЄЅІЇЈЉЊЋЌ\u00adЎЏАБВГДЕЖЗИЙКЛМНОП",
    "РСТУФХЦЧШЩЪЫЬЭЮЯабвгдежзийклмноп",
    "рстуфхцчшщъыьэюя№ёђѓєѕіїјљњћќ§ўџ"]

/-- Arabic letters. -/
def iso8859Part6 : CodePage where
  names := ["iso-8859-6", "iso_8859-6", "iso8859-6", "iso-ir-127", "ecma-114", "asmo-708",
    "arabic", "csisolatinarabic"]
  first := 0xa0
  rows := [
    "\u00a0\ufffd\ufffd\ufffd¤\ufffd\ufffd\ufffd\ufffd\ufffd\ufffd\ufffd،\u00ad\ufffd\ufffd\ufffd",
    "\ufffd\ufffd\ufffd\ufffd\ufffd\ufffd\ufffd\ufffd\ufffd\ufffd\u061b\ufffd\ufffd\ufffd\u061f",
    "\ufffd\u0621\u0622\u0623\u0624\u0625\u0626\u0627\u0628\u0629\u062a\u062b\u062c\u062d\u062e",
    "\u062f\u0630\u0631\u0632\u0633\u0634\u0635\u0636\u0637\u0638\u0639\u063a\ufffd\ufffd\ufffd",
    "\ufffd\ufffd\u0640\u0641\u0642\u0643\u0644\u0645\u0646\u0647\u0648\u0649\u064a\u064b\u064c",
    "\u064d\u064e\u064f\u0650\u0651\u0652"]

/-- Greek letters. -/
def iso8859Part7 : CodePage where
  names := ["iso-8859-7", "iso_8859-7", "iso8859-7", "iso-ir-126", "ecma-118", "elot_928",
    "greek8", "greek", "csisolatingreek"]
  first := 0xa0
  rows := [
    "\u00a0‘’£€₯¦§¨©ͺ«¬\u00ad\ufffd―°±²³΄΅Ά·ΈΉΊ»Ό½ΎΏ",
    "ΐΑΒΓΔΕΖΗΘΙΚΛΜΝΞΟΠΡ\ufffdΣΤΥΦΧΨΩΪΫάέήί",
    "ΰαβγδεζηθικλμνξοπρςστυφχψωϊϋόύώ"]

/-- Hebrew letters. -/
def iso8859Part8 : CodePage where
  names := ["iso-8859-8", "iso_8859-8", "iso8859-8", "iso-ir-138", "hebrew", "csisolatinhebrew"]
  first := 0xa0
  rows := [
    "\u00a0\ufffd¢£¤¥¦§¨©×«¬\u00ad®¯°±²³´µ¶·¸¹÷»¼½¾\ufffd",
    "\ufffd\ufffd\ufffd\ufffd\ufffd\ufffd\ufffd\ufffd\ufffd\ufffd\ufffd\ufffd\ufffd\ufffd\ufffd",
    "\ufffd\ufffd\ufffd\ufffd\ufffd\ufffd\ufffd\ufffd\ufffd\ufffd\ufffd\ufffd\ufffd\ufffd\ufffd",
    "\ufffd‗\u05d0\u05d1\u05d2\u05d3\u05d4\u05d5\u05d6\u05d7\u05d8\u05d9\u05da\u05db\u05dc\u05dd",
    "\u05de\u05df\u05e0\u05e1\u05e2\u05e3\u05e4\u05e5\u05e6\u05e7\u05e8\u05e9\u05ea\ufffd\ufffd",
    "\u200e\u200f"]

/-- Latin letters with those of Turkish. -/
def iso8859Part9 : CodePage where
  names := ["iso-8859-9", "iso_8859-9", "iso8859-9", "iso-ir-148", "latin5", "l5", "csisolatin5"]
  first := 0xa0
  rows := [
    "\u00a0¡¢£¤¥¦§¨©ª«¬\u00ad®¯°±²³´µ¶·¸¹º»¼½¾¿",
    "ÀÁÂÃÄÅÆÇÈÉÊËÌÍÎÏĞÑÒÓÔÕÖ×ØÙÚÛÜİŞß",
    "àáâãäåæçèéêëìíîïğñòóôõö÷øùúûüışÿ"]

/-- Latin letters of the Nordic languages. -/
def iso8859Part10 : CodePage where
  names := ["iso-8859-10", "iso_8859-10", "iso8859-10", "iso-ir-157", "latin6", "l6",
    "csisolatin6"]
  first := 0xa0
  rows := [
    "\u00a0ĄĒĢĪĨĶ§ĻĐŠŦŽ\u00adŪŊ°ąēģīĩķ·ļđšŧž―ūŋ",
    "ĀÁÂÃÄÅÆĮČÉĘËĖÍÎÏÐŅŌÓÔÕÖŨØŲÚÛÜÝÞß",
    "āáâãäåæįčéęëėíîïðņōóôõöũøųúûüýþĸ"]

/-- Thai letters, with controls before them. -/
def iso8859Part11 : CodePage where
  names := ["iso-8859-11", "iso_8859-11", "iso8859-11"]
  first := 0xa0
  rows := [
    "\u00a0กขฃคฅฆงจฉชซฌญฎฏฐฑฒณดตถทธนบปผฝพฟ",
    "ภมยรฤลฦวศษสหฬอฮฯะ\u0e31าำ\u0e34\u0e35\u0e36\u0e37\u0e38\u0e39\u0e3a\ufffd\ufffd\ufffd\ufffd฿",
    "เแโใไๅๆ\u0e47\u0e48\u0e49\u0e4a\u0e4b\u0e4c\u0e4d\u0e4e๏๐๑๒๓๔๕๖๗๘๙๚๛"]

/-- Latin letters of the Baltic languages. -/
def iso8859Part13 : CodePage where
  names := ["iso-8859-13", "iso_8859-13", "iso8859-13", "iso-ir-179", "latin7", "l7"]
  first := 0xa0
  rows := [
    "\u00a0”¢£¤„¦§Ø©Ŗ«¬\u00ad®Æ°±²³“µ¶·ø¹ŗ»¼½¾æ",
    "ĄĮĀĆÄÅĘĒČÉŹĖĢĶĪĻŠŃŅÓŌÕÖ×ŲŁŚŪÜŻŽß",
    "ąįāćäåęēčéźėģķīļšńņóōõö÷ųłśūüżž’"]

/-- Latin letters of the Celtic languages. -/
def iso8859Part14 : CodePage where
  names := ["iso-8859-14", "iso_8859-14", "iso8859-14", "iso-ir-199", "latin8", "l8", "iso-celtic"]
  first := 0xa0
  rows := [
    "\u00a0Ḃḃ£ĊċḊ§Ẁ©ẂḋỲ\u00ad®ŸḞḟĠġṀṁ¶ṖẁṗẃṠỳẄẅṡ",
    "ÀÁÂÃÄÅÆÇÈÉÊËÌÍÎÏŴÑÒÓÔÕÖṪØÙÚÛÜÝŶß",
    "àáâãäåæçèéêëìíîïŵñòóôõöṫøùúûüýŷÿ"]

/-- Latin letters of western Europe, with the euro sign. -/
def iso8859Part15 : CodePage where
  names := ["iso-8859-15", "iso_8859-15", "iso8859-15", "iso-ir-203", "latin-9"]
  first := 0xa0
  rows := [
    "\u00a0¡¢£€¥Š§š©ª«¬\u00ad®¯°±²³Žµ¶·ž¹º»ŒœŸ¿",
    "ÀÁÂÃÄÅÆÇÈÉÊËÌÍÎÏÐÑÒÓÔÕÖ×ØÙÚÛÜÝÞß",
    "àáâãäåæçèéêëìíîïðñòóôõö÷øùúûüýþÿ"]

/-- Latin letters of south-eastern Europe. -/
def iso8859Part16 : CodePage where
  names := ["iso-8859-16", "iso_8859-16", "iso8859-16", "iso-ir-226", "latin10", "l10"]
  first := 0xa0
  rows := [
    "\u00a0ĄąŁ€„Š§š©Ș«Ź\u00adźŻ°±ČłŽ”¶·žčș»ŒœŸż",
    "ÀÁÂĂÄĆÆÇÈÉÊËÌÍÎÏĐŃÒÓÔŐÖŚŰÙÚÛÜĘȚß",
    "àáâăäćæçèéêëìíîïđńòóôőöśűùúûüęțÿ"]

/-- Cyrillic letters of Russian, in the order of the Latin ones they sound like. -/
def koi8R : CodePage where
  names := ["koi8-r", "cskoi8r"]
  first := 0x80
  rows := [
    "─│┌┐└┘├┤┬┴┼▀▄█▌▐░▒▓⌠■∙√≈≤≥\u00a0⌡°²·÷",
    "═║╒ё╓╔╕╖╗╘╙╚╛╜╝╞╟╠╡Ё╢╣╤╥╦╧╨╩╪╫╬©",
    "юабцдефгхийклмнопярстужвьызшэщчъ",
    "ЮАБЦДЕФГХИЙКЛМНОПЯРСТУЖВЬЫЗШЭЩЧЪ"]

/-- Cyrillic letters of Ukrainian, in the order of the Latin ones they sound like. -/
def koi8U : CodePage where
  names := ["koi8-u"]
  first := 0x80
  rows := [
    "─│┌┐└┘├┤┬┴┼▀▄█▌▐░▒▓⌠■∙√≈≤≥\u00a0⌡°²·÷",
    "═║╒ёє╔ії╗╘╙╚╛ґ╝╞╟╠╡ЁЄ╣ІЇ╦╧╨╩╪Ґ╬©",
    "юабцдефгхийклмнопярстужвьызшэщчъ",
    "ЮАБЦДЕФГХИЙКЛМНОПЯРСТУЖВЬЫЗШЭЩЧЪ"]

/-- Cyrillic letters of Belarusian, in the order of the Latin ones they sound like. -/
def koi8RU : CodePage where
  names := ["koi8-ru"]
  first := 0x80
  rows := [
    "─│┌┐└┘├┤┬┴┼▀▄█▌▐░▒▓“■∙”—№™\u00a0»®«·¤",
    "═║╒ёє╔ії╗╘╙╚╛ґў╞╟╠╡ЁЄ╣ІЇ╦╧╨╩╪ҐЎ©",
    "юабцдефгхийклмнопярстужвьызшэщчъ",
    "ЮАБЦДЕФГХИЙКЛМНОПЯРСТУЖВЬЫЗШЭЩЧЪ"]

/-- Cyrillic letters of Tajik, in the order of the Latin ones they sound like. -/
def koi8T : CodePage where
  names := ["koi8-t"]
  first := 0x80
  rows := [
    "қғ‚Ғ„…†‡\ufffd‰ҳ‹ҲҷҶ\ufffdҚ‘’“”•–—\ufffd™\ufffd›\ufffd\ufffd\ufffd\ufffd",
    "\ufffdӯӮё¤ӣ¦§\ufffd\ufffd\ufffd«¬\u00ad®\ufffd°±²Ё\ufffdӢ¶·\ufffd№\ufffd»\ufffd\ufffd\ufffd©",
    "юабцдефгхийклмнопярстужвьызшэщчъ",
    "ЮАБЦДЕФГХИЙКЛМНОПЯРСТУЖВЬЫЗШЭЩЧЪ"]

/-- Latin letters of central Europe, on desktops. -/
def windows1250 : CodePage where
  names := ["cp1250", "windows-1250", "ms-ee"]
  first := 0x80
  rows := [
    "€\ufffd‚\ufffd„…†‡\ufffd‰Š‹ŚŤŽŹ\ufffd‘’“”•–—\ufffd™š›śťžź",
    "\u00a0ˇ˘Ł¤Ą¦§¨©Ş«¬\u00ad®Ż°±˛ł´µ¶·¸ąş»Ľ˝ľż",
    "ŔÁÂĂÄĹĆÇČÉĘËĚÍÎĎĐŃŇÓÔŐÖ×ŘŮÚŰÜÝŢß",
    "ŕáâăäĺćçčéęëěíîďđńňóôőö÷řůúűüýţ˙"]

/-- Cyrillic letters, on desktops. -/
def windows1251 : CodePage where
  names := ["cp1251", "windows-1251", "ms-cyrl"]
  first := 0x80
  rows := [
    "ЂЃ‚ѓ„…†‡€‰Љ‹ЊЌЋЏђ‘’“”•–—\ufffd™љ›њќћџ",
    "\u00a0ЎўЈ¤Ґ¦§Ё©Є«¬\u00ad®Ї°±Ііґµ¶·ё№є»јЅѕї",
    "АБВГДЕЖЗИЙКЛМНОПРСТУФХЦЧШЩЪЫЬЭЮЯ",
    "абвгдежзийклмнопрстуфхцчшщъыьэюя"]

/-- Latin letters of western Europe, on desktops. -/
def windows1252 : CodePage where
  names := ["cp1252", "windows-1252", "ms-ansi"]
  first := 0x80
  rows := [
    "€\ufffd‚ƒ„…†‡ˆ‰Š‹Œ\ufffdŽ\ufffd\ufffd‘’“”•–—˜™š›œ\ufffdžŸ",
    "\u00a0¡¢£¤¥¦§¨©ª«¬\u00ad®¯°±²³´µ¶·¸¹º»¼½¾¿",
    "ÀÁÂÃÄÅÆÇÈÉÊËÌÍÎÏÐÑÒÓÔÕÖ×ØÙÚÛÜÝÞß",
    "àáâãäåæçèéêëìíîïðñòóôõö÷øùúûüýþÿ"]

/-- Greek letters, on desktops. -/
def windows1253 : CodePage where
  names := ["cp1253", "windows-1253", "ms-greek"]
  first := 0x80
  rows := [
    "€\ufffd‚ƒ„…†‡\ufffd‰\ufffd‹\ufffd\ufffd\ufffd\ufffd\ufffd‘’“”•–—\ufffd™\ufffd›\ufffd\ufffd",
    "\ufffd\ufffd\u00a0΅Ά£¤¥¦§¨©\ufffd«¬\u00ad®―°±²³΄µ¶·ΈΉΊ»Ό½",
    "ΎΏΐΑΒΓΔΕΖΗΘΙΚΛΜΝΞΟΠΡ\ufffdΣΤΥΦΧΨΩΪΫάέ",
    "ήίΰαβγδεζηθικλμνξοπρςστυφχψωϊϋόύ",
    "ώ"]

/-- Latin letters with those of Turkish, on desktops. -/
def windows1254 : CodePage where
  names := ["cp1254", "windows-1254", "ms-turk"]
  first := 0x80
  rows := [
    "€\ufffd‚ƒ„…†‡ˆ‰Š‹Œ\ufffd\ufffd\ufffd\ufffd‘’“”•–—˜™š›œ\ufffd\ufffdŸ",
    "\u00a0¡¢£¤¥¦§¨©ª«¬\u00ad®¯°±²³´µ¶·¸¹º»¼½¾¿",
    "ÀÁÂÃÄÅÆÇÈÉÊËÌÍÎÏĞÑÒÓÔÕÖ×ØÙÚÛÜİŞß",
    "àáâãäåæçèéêëìíîïğñòóôõö÷øùúûüışÿ"]

/-- Hebrew letters, on desktops. -/
def windows1255 : CodePage where
  names := ["cp1255", "windows-1255", "ms-hebr"]
  first := 0x80
  rows := [
    "€\ufffd‚ƒ„…†‡ˆ‰\ufffd‹\ufffd\ufffd\ufffd\ufffd\ufffd‘’“”•–—˜™\ufffd›\ufffd\ufffd\ufffd\ufffd",
    "\u00a0¡¢£₪¥¦§¨©×«¬\u00ad®¯°±²³´µ¶·¸¹÷»¼½¾¿",
    "\u05b0\u05b1\u05b2\u05b3\u05b4\u05b5\u05b6\u05b7\u05b8\u05b9\ufffd\u05bb\u05bc\u05bd\u05be",
    "\u05bf\u05c0\u05c1\u05c2\u05c3\u05f0\u05f1\u05f2\u05f3\u05f4\ufffd\ufffd\ufffd\ufffd\ufffd",
    "\ufffd\ufffd\u05d0\u05d1\u05d2\u05d3\u05d4\u05d5\u05d6\u05d7\u05d8\u05d9\u05da\u05db\u05dc",
    "\u05dd\u05de\u05df\u05e0\u05e1\u05e2\u05e3\u05e4\u05e5\u05e6\u05e7\u05e8\u05e9\u05ea\ufffd",
    "\ufffd\u200e\u200f"]
  marks := [
    ('\u05b4', "\u05d9", "\ufb1d"),
    ('\u05b7', "\u05f2\u05d0", "\ufb1f\ufb2e"),
    ('\u05b8', "\u05d0", "\ufb2f"),
    ('\u05b9', "\u05d5", "\ufb4b"),
    ('\u05bc',
      "\u05d0\u05d1\u05d2\u05d3\u05d4\u05d5\u05d6\u05d8\u05d9\u05da\u05db\u05dc" ++
        "\u05de\u05e0\u05e1\u05e3\u05e4\u05e6\u05e7\u05e8\u05e9\u05ea\ufb2a\ufb2b",
      "\ufb30\ufb31\ufb32\ufb33\ufb34\ufb35\ufb36\ufb38\ufb39\ufb3a\ufb3b\ufb3c" ++
        "\ufb3e\ufb40\ufb41\ufb43\ufb44\ufb46\ufb47\ufb48\ufb49\ufb4a\ufb2c\ufb2d"),
    ('\u05bf', "\u05d1\u05db\u05e4", "\ufb4c\ufb4d\ufb4e"),
    ('\u05c1', "\u05e9\ufb49", "\ufb2a\ufb2c"),
    ('\u05c2', "\u05e9\ufb49", "\ufb2b\ufb2d")]

/-- Arabic letters, on desktops. -/
def windows1256 : CodePage where
  names := ["cp1256", "windows-1256", "ms-arab"]
  first := 0x80
  rows := [
    "€\u067e‚ƒ„…†‡ˆ‰\u0679‹Œ\u0686\u0698\u0688\u06af‘’“”•–—\u06a9™\u0691›œ\u200c\u200d\u06ba",
    "\u00a0،¢£¤¥¦§¨©\u06be«¬\u00ad®¯°±²³´µ¶·¸¹\u061b»¼½¾\u061f",
    "\u06c1\u0621\u0622\u0623\u0624\u0625\u0626\u0627\u0628\u0629\u062a\u062b\u062c\u062d\u062e",
    "\u062f\u0630\u0631\u0632\u0633\u0634\u0635\u0636×\u0637\u0638\u0639\u063a\u0640\u0641\u0642",
    "\u0643à\u0644â\u0645\u0646\u0647\u0648çèéêë\u0649\u064aîï\u064b\u064c\u064d\u064eô\u064f",
    "\u0650÷\u0651ù\u0652ûü\u200e\u200f\u06d2"]

/-- Latin letters of the Baltic languages, on desktops. -/
def windows1257 : CodePage where
  names := ["cp1257", "windows-1257", "winbaltrim"]
  first := 0x80
  rows := [
    "€\ufffd‚\ufffd„…†‡\ufffd‰\ufffd‹\ufffd¨ˇ¸\ufffd‘’“”•–—\ufffd™\ufffd›\ufffd¯˛\ufffd",
    "\u00a0\ufffd¢£¤\ufffd¦§Ø©Ŗ«¬\u00ad®Æ°±²³´µ¶·ø¹ŗ»¼½¾æ",
    "ĄĮĀĆÄÅĘĒČÉŹĖĢĶĪĻŠŃŅÓŌÕÖ×ŲŁŚŪÜŻŽß",
    "ąįāćäåęēčéźėģķīļšńņóōõö÷ųłśūüżž˙"]

/-- Vietnamese tones as marks of the letters that they stand behind. -/
def vietnameseMarks : List (Char × String × String) := [
  ('\u0300', "AEINOUWYaeinouwy¨ÂĂÊÔƠÜƯâăêôơüư",
    "ÀÈÌǸÒÙẀỲàèìǹòùẁỳ῭ẦẰỀỒỜǛỪầằềồờǜừ"),
  ('\u0301', "ACEGIKLMNOPRSUWYZacegiklmnoprsuwyz¨ÂĂÅÆÇÊÏÔƠØÜƯâăåæçêïôơøüư",
    "ÁĆÉǴÍḰĹḾŃÓṔŔŚÚẂÝŹáćéǵíḱĺḿńóṕŕśúẃýź΅ẤẮǺǼḈẾḮỐỚǾǗỨấắǻǽḉếḯốớǿǘứ"),
  ('\u0303', "AEINOUVYaeinouvyÂĂÊÔƠƯâăêôơư",
    "ÃẼĨÑÕŨṼỸãẽĩñõũṽỹẪẴỄỖỠỮẫẵễỗỡữ"),
  ('\u0309', "AEIOUYaeiouyÂĂÊÔƠƯâăêôơư",
    "ẢẺỈỎỦỶảẻỉỏủỷẨẲỂỔỞỬẩẳểổởử"),
  ('\u0323', "ABDEHIKLMNORSTUVWYZabdehiklmnorstuvwyzÂĂÊÔƠƯâăêôơư",
    "ẠḄḌẸḤỊḲḶṂṆỌṚṢṬỤṾẈỴẒạḅḍẹḥịḳḷṃṇọṛṣṭụṿẉỵẓẬẶỆỘỢỰậặệộợự")]

/-- Latin letters with those of Vietnamese, on desktops. -/
def windows1258 : CodePage where
  names := ["cp1258", "windows-1258"]
  first := 0x80
  rows := [
    "€\ufffd‚ƒ„…†‡ˆ‰\ufffd‹Œ\ufffd\ufffd\ufffd\ufffd‘’“”•–—˜™\ufffd›œ\ufffd\ufffdŸ",
    "\u00a0¡¢£¤¥¦§¨©ª«¬\u00ad®¯°±²³´µ¶·¸¹º»¼½¾¿",
    "ÀÁÂĂÄÅÆÇÈÉÊË\u0300ÍÎÏĐÑ\u0309ÓÔƠÖ×ØÙÚÛÜƯ\u0303ß",
    "àáâăäåæçèéêë\u0301íîïđñ\u0323óôơö÷øùúûüư₫ÿ"]
  marks := vietnameseMarks

/-- Thai letters, on desktops. -/
def windows874 : CodePage where
  names := ["cp874", "windows-874"]
  first := 0x80
  rows := [
    "€\ufffd\ufffd\ufffd\ufffd…\ufffd\ufffd\ufffd\ufffd\ufffd\ufffd\ufffd\ufffd\ufffd\ufffd\ufffd‘",
    "’“”•–—\ufffd\ufffd\ufffd\ufffd\ufffd\ufffd\ufffd\ufffd\u00a0กขฃคฅฆงจฉชซฌญฎฏฐฑ",
    "ฒณดตถทธนบปผฝพฟภมยรฤลฦวศษสหฬอฮฯะ\u0e31",
    "าำ\u0e34\u0e35\u0e36\u0e37\u0e38\u0e39\u0e3a\ufffd\ufffd\ufffd\ufffd฿เแโใไๅๆ\u0e47\u0e48",
    "\u0e49\u0e4a\u0e4b\u0e4c\u0e4d\u0e4e๏๐๑๒๓๔๕๖๗๘๙๚๛"]

/-- Thai letters. -/
def tis620 : CodePage where
  names := ["tis-620", "tis620", "tis620-0", "tis620.2529-1", "tis620.2533-0", "tis620.2533-1",
    "iso-ir-166"]
  first := 0x80
  rows := [
    "\ufffd\ufffd\ufffd\ufffd\ufffd\ufffd\ufffd\ufffd\ufffd\ufffd\ufffd\ufffd\ufffd\ufffd\ufffd",
    "\ufffd\ufffd\ufffd\ufffd\ufffd\ufffd\ufffd\ufffd\ufffd\ufffd\ufffd\ufffd\ufffd\ufffd\ufffd",
    "\ufffd\ufffd\ufffdกขฃคฅฆงจฉชซฌญฎฏฐฑฒณดตถทธนบปผฝ",
    "พฟภมยรฤลฦวศษสหฬอฮฯะ\u0e31าำ\u0e34\u0e35\u0e36\u0e37\u0e38\u0e39\u0e3a\ufffd\ufffd\ufffd",
    "\ufffd฿เแโใไๅๆ\u0e47\u0e48\u0e49\u0e4a\u0e4b\u0e4c\u0e4d\u0e4e๏๐๑๒๓๔๕๖๗๘๙๚๛"]

/-- Latin letters of western Europe with box drawings, on the first personal computers. -/
def codePage437 : CodePage where
  names := []
  first := 0x80
  rows := [
    "ÇüéâäàåçêëèïîìÄÅÉæÆôöòûùÿÖÜ¢£¥₧ƒ",
    "áíóúñÑªº¿⌐¬½¼¡«»░▒▓│┤╡╢╖╕╣║╗╝╜╛┐",
    "└┴┬├─┼╞╟╚╔╩╦╠═╬╧╨╤╥╙╘╒╓╫╪┘┌█▄▌▐▀",
    "αßΓπΣσµτΦΘΩδ∞φε∩≡±≥≤⌠⌡÷≈°∙·√ⁿ²■\u00a0"]

/-- Latin letters of western Europe with a few box drawings. -/
def codePage850 : CodePage where
  names := ["cp850", "ibm850", "cspc850multilingual"]
  first := 0x80
  rows := [
    "ÇüéâäàåçêëèïîìÄÅÉæÆôöòûùÿÖÜø£Ø×ƒ",
    "áíóúñÑªº¿®¬½¼¡«»░▒▓│┤ÁÂÀ©╣║╗╝¢¥┐",
    "└┴┬├─┼ãÃ╚╔╩╦╠═╬¤ðÐÊËÈıÍÎÏ┘┌█▄¦Ì▀",
    "ÓßÔÒõÕµþÞÚÛÙýÝ¯´\u00ad±‗¾¶§÷¸°¨·¹³²■\u00a0"]

/-- Hebrew letters with box drawings. -/
def codePage862 : CodePage where
  names := ["cp862", "ibm862", "cspc862latinhebrew"]
  first := 0x80
  rows := [
    "\u05d0\u05d1\u05d2\u05d3\u05d4\u05d5\u05d6\u05d7\u05d8\u05d9\u05da\u05db\u05dc\u05dd\u05de",
    "\u05df\u05e0\u05e1\u05e2\u05e3\u05e4\u05e5\u05e6\u05e7\u05e8\u05e9\u05ea¢£¥₧ƒáíóúñÑªº¿⌐¬½¼¡«",
    "»░▒▓│┤╡╢╖╕╣║╗╝╜╛┐└┴┬├─┼╞╟╚╔╩╦╠═╬",
    "╧╨╤╥╙╘╒╓╫╪┘┌█▄▌▐▀αßΓπΣσµτΦΘΩδ∞φε",
    "∩≡±≥≤⌠⌡÷≈°∙·√ⁿ²■\u00a0"]

/-- Cyrillic letters with box drawings. -/
def codePage866 : CodePage where
  names := ["cp866", "ibm866", "csibm866"]
  first := 0x80
  rows := [
    "АБВГДЕЖЗИЙКЛМНОПРСТУФХЦЧШЩЪЫЬЭЮЯ",
    "абвгдежзийклмноп░▒▓│┤╡╢╖╕╣║╗╝╜╛┐",
    "└┴┬├─┼╞╟╚╔╩╦╠═╬╧╨╤╥╙╘╒╓╫╪┘┌█▄▌▐▀",
    "рстуфхцчшщъыьэюяЁёЄєЇїЎў°∙·√№¤■\u00a0"]

/-- Cyrillic letters of Belarusian on terminals. -/
def codePage1131 : CodePage where
  names := ["cp1131", "ibm-1131"]
  first := 0x80
  rows := [
    "АБВГДЕЖЗИЙКЛМНОПРСТУФХЦЧШЩЪЫЬЭЮЯ",
    "абвгдежзийклмноп░▒▓│┤╡╢╖╕╣║╗╝╜╛┐",
    "└┴┬├─┼╞╟╚╔╩╦╠═╬╧╨╤╥╙╘╒╓╫╪┘┌█▄▌▐▀",
    "рстуфхцчшщъыьэюяЁёЄєЇїЎўІі·¤Ґґ∙\u00a0"]

/-- Lao letters. -/
def codePage1133 : CodePage where
  names := ["cp1133", "ibm-cp1133"]
  first := 0xa0
  rows := [
    "\ufffdກຂຄງຈສຊຍດຕຖທນບປຜຝພຟມຢຣລວຫອຮ\ufffd\ufffd\ufffdຯ",
    "ະາຳ\u0eb4\u0eb5\u0eb6\u0eb7\u0eb8\u0eb9\u0ebc\u0eb1\u0ebbຽ\ufffd\ufffd\ufffdເແໂໃໄ\u0ec8\u0ec9",
    "\u0eca\u0ecb\u0ecc\u0ecdໆ\ufffdໜໝk\ufffd\ufffd\ufffd\ufffd\ufffd\ufffd\ufffd\ufffd\ufffd",
    "\ufffd\ufffd\ufffd\ufffd\ufffd\ufffd\ufffd໐໑໒໓໔໕໖໗໘໙\ufffd\ufffd¢¬¦\u00a0"]

/-- Vietnamese letters, six of them in the place of control characters. -/
def viscii : CodePage where
  names := ["viscii", "viscii1.1-1", "csviscii"]
  first := 0
  rows := [
    "\x00\x01Ẳ\x03\x04ẴẪ\x07\x08\x09\x0a\x0b\x0c\x0d\x0e\x0f",
    "\x10\x11\x12\x13Ỷ\x15\x16\x17\x18Ỹ\x1a\x1b\x1c\x1dỴ\x1f",
    " !\"#$%&'()*+,-./0123456789:;<=>?",
    "@ABCDEFGHIJKLMNOPQRSTUVWXYZ[\\]^_",
    "`abcdefghijklmnopqrstuvwxyz\x7b|\x7d~\x7f",
    "ẠẮẰẶẤẦẨẬẼẸẾỀỂỄỆỐỒỔỖỘỢỚỜỞỊỎỌỈỦŨỤỲ",
    "ÕắằặấầẩậẽẹếềểễệốồổỗỠƠộờởịỰỨỪỬơớƯ",
    "ÀÁÂÃẢĂẳẵÈÉÊẺÌÍĨỳĐứÒÓÔạỷừửÙÚỹỵÝỡư",
    "àáâãảăữẫèéêẻìíĩỉđựòóôõỏọụùúũủýợỮ"]

/-- Vietnamese letters, with marks that may follow a letter. -/
def tcvn : CodePage where
  names := ["tcvn", "tcvn-5712", "tcvn5712-1", "tcvn5712-1:1993"]
  first := 0
  rows := [
    "\x00ÚỤ\x03ỪỬỮ\x07\x08\x09\x0a\x0b\x0c\x0d\x0e\x0f\x10ỨỰỲỶỸÝỴ\x18\x19\x1a\x1b\x1c\x1d\x1e\x1f",
    " !\"#$%&'()*+,-./0123456789:;<=>?",
    "@ABCDEFGHIJKLMNOPQRSTUVWXYZ[\\]^_",
    "`abcdefghijklmnopqrstuvwxyz\x7b|\x7d~\x7f",
    "ÀẢÃÁẠẶẬÈẺẼÉẸỆÌỈĨÍỊÒỎÕÓỌỘỜỞỠỚỢÙỦŨ",
    "\u00a0ĂÂÊÔƠƯĐăâêôơưđẰ\u0300\u0309\u0303\u0301\u0323àảãáạẲằẳẵắẴ",
    "ẮẦẨẪẤỀặầẩẫấậèỂẻẽéẹềểễếệìỉỄẾỒĩíịò",
    "ỔỏõóọồổỗốộờởỡớợùỖủũúụừửữứựỳỷỹýỵỐ"]
  marks := vietnameseMarks

/-- Narrow kana, with the signs for yen and overline in the place of two of ASCII. -/
def narrowJapanese : CodePage where
  names := ["jis_x0201", "jisx0201-1976", "x0201", "cshalfwidthkatakana"]
  first := 0x5c
  rows := [
    "¥]^_`abcdefghijklmnopqrstuvwxyz\x7b",
    "|\x7d‾\x7f\ufffd\ufffd\ufffd\ufffd\ufffd\ufffd\ufffd\ufffd\ufffd\ufffd\ufffd\ufffd",
    "\ufffd\ufffd\ufffd\ufffd\ufffd\ufffd\ufffd\ufffd",
    "\ufffd\ufffd\ufffd\ufffd\ufffd\ufffd\ufffd\ufffd",
    "\ufffd\ufffd\ufffd\ufffd\ufffd｡｢｣､･ｦｧｨｩｪｫｬｭｮｯｰｱｲｳｴｵｶｷｸｹｺｻ",
    "ｼｽｾｿﾀﾁﾂﾃﾄﾅﾆﾇﾈﾉﾊﾋﾌﾍﾎﾏﾐﾑﾒﾓﾔﾕﾖﾗﾘﾙﾚﾛ",
    "ﾜﾝﾞﾟ"]

/-- Armenian letters. -/
def armscii8 : CodePage where
  names := ["armscii-8"]
  first := 0xa0
  rows := [
    "\u00a0\ufffdև։)(»«—.՝,-֊…՜՛՞ԱաԲբԳգԴդԵեԶզԷէ",
    "ԸըԹթԺժԻիԼլԽխԾծԿկՀհՁձՂղՃճՄմՅյՆնՇշ",
    "ՈոՉչՊպՋջՌռՍսՎվՏտՐրՑցՒւՓփՔքՕօՖֆ՚"]

/-- Georgian letters, as the academy orders them. -/
def georgianAcademy : CodePage where
  names := ["georgian-academy"]
  first := 0x80
  rows := [
    "\u0080\u0081‚ƒ„…†‡ˆ‰Š‹Œ\u008d\u008e\u008f\u0090‘’“”•–—˜™š›œ\u009d\u009eŸ",
    "\u00a0¡¢£¤¥¦§¨©ª«¬\u00ad®¯°±²³´µ¶·¸¹º»¼½¾¿",
    "აბგდევზთიკლმნოპჟრსტუფქღყშჩცძწჭხჯ",
    "ჰჱჲჳჴჵჶçèéêëìíîïðñòóôõö÷øùúûüýþÿ"]

/-- Georgian letters. -/
def georgianStandard : CodePage where
  names := ["georgian-ps"]
  first := 0x80
  rows := [
    "\u0080\u0081‚ƒ„…†‡ˆ‰Š‹Œ\u008d\u008e\u008f\u0090‘’“”•–—˜™š›œ\u009d\u009eŸ",
    "\u00a0¡¢£¤¥¦§¨©ª«¬\u00ad®¯°±²³´µ¶·¸¹º»¼½¾¿",
    "აბგდევზჱთიკლმნჲოპჟრსტჳუფქღყშჩცძწ",
    "ჭხჴჯჰჵæçèéêëìíîïðñòóôõö÷øùúûüýþÿ"]

/-- Cyrillic letters of Asian languages. -/
def cyrillicAsian : CodePage where
  names := ["pt154", "ptcp154", "cp154", "cyrillic-asian", "csptcp154"]
  first := 0x80
  rows := [
    "ҖҒӮғ„…ҶҮҲүҠӢҢҚҺҸҗ‘’“”•–—ҳҷҡӣңқһҹ",
    "\u00a0ЎўЈӨҘҰ§Ё©Ә«¬ӯ®Ҝ°ұІіҙө¶·ё№ә»јҪҫҝ",
    "АБВГДЕЖЗИЙКЛМНОПРСТУФХЦЧШЩЪЫЬЭЮЯ",
    "абвгдежзийклмнопрстуфхцчшщъыьэюя"]

/-- Cyrillic letters of Kazakh. -/
def kazakh : CodePage where
  names := ["rk1048", "strk1048-2002", "kz-1048", "cskz1048"]
  first := 0x80
  rows := [
    "ЂЃ‚ѓ„…†‡€‰Љ‹ЊҚҺЏђ‘’“”•–—\ufffd™љ›њқһџ",
    "\u00a0ҰұӘ¤Ө¦§Ё©Ғ«¬\u00ad®Ү°±Ііөµ¶·ё№ғ»әҢңү",
    "АБВГДЕЖЗИЙКЛМНОПРСТУФХЦЧШЩЪЫЬЭЮЯ",
    "абвгдежзийклмнопрстуфхцчшщъыьэюя"]

/-- Latin letters of terminals and printers. -/
def roman8 : CodePage where
  names := ["hp-roman8", "roman8", "r8", "cshproman8"]
  first := 0xa0
  rows := [
    "\u00a0ÀÂÈÊËÎÏ´ˋˆ¨˜ÙÛ₤¯Ýý°ÇçÑñ¡¿¤£¥§ƒ¢",
    "âêôûáéóúàèòùäëöüÅîØÆåíøæÄìÖÜÉïßÔ",
    "ÁÃãÐðÍÌÓÒÕõŠšÚŸÿÞþ·µ¶¾—¼½ªº«■»±"]

/-- Latin letters of western Europe, with typographical signs. -/
def nextStep : CodePage where
  names := ["nextstep"]
  first := 0x80
  rows := [
    "\u00a0ÀÁÂÃÄÅÇÈÉÊËÌÍÎÏÐÑÒÓÔÕÖÙÚÛÜÝÞµ×÷",
    "©¡¢£⁄¥ƒ§¤’“«‹›ﬁﬂ®–†‡·¦¶•‚„”»…‰¬¿",
    "¹ˋ´ˆ˜¯˘˙¨²˚¸³˝˛ˇ—±¼½¾àáâãäåçèéêë",
    "ìÆíªîïðñŁØŒºòóôõöæùúûıüýłøœßþÿ\ufffd\ufffd"]

/-- Latin letters of western Europe, of the `mac` family. -/
def macRoman : CodePage where
  names := ["macroman", "macintosh", "mac", "csmacintosh"]
  first := 0x80
  rows := [
    "ÄÅÇÉÑÖÜáàâäãåçéèêëíìîïñóòôöõúùûü",
    "†°¢£§•¶ß®©™´¨≠ÆØ∞±≤≥¥µ∂∑∏π∫ªºΩæø",
    "¿¡¬√ƒ≈∆«»…\u00a0ÀÃÕŒœ–—“”‘’÷◊ÿŸ⁄¤‹›ﬁﬂ",
    "‡·‚„‰ÂÊÁËÈÍÎÏÌÓÔ\ufffdÒÚÛÙıˆ˜¯˘˙˚¸˝˛ˇ"]

/-- Latin letters of central Europe, of the `mac` family. -/
def macCentralEurope : CodePage where
  names := ["maccentraleurope"]
  first := 0x80
  rows := [
    "ÄĀāÉĄÖÜáąČäčĆćéŹźĎíďĒēĖóėôöõúĚěü",
    "†°Ę£§•¶ß®©™ę¨≠ģĮįĪ≤≥īĶ∂∑łĻļĽľĹĺŅ",
    "ņŃ¬√ńŇ∆«»…\u00a0ňŐÕőŌ–—“”‘’÷◊ōŔŕŘ‹›řŖ",
    "ŗŠ‚„šŚśÁŤťÍŽžŪÓÔūŮÚůŰűŲųÝýķŻŁżĢˇ"]

/-- Latin letters with those of Icelandic, of the `mac` family. -/
def macIceland : CodePage where
  names := ["maciceland"]
  first := 0x80
  rows := [
    "ÄÅÇÉÑÖÜáàâäãåçéèêëíìîïñóòôöõúùûü",
    "Ý°¢£§•¶ß®©™´¨≠ÆØ∞±≤≥¥µ∂∑∏π∫ªºΩæø",
    "¿¡¬√ƒ≈∆«»…\u00a0ÀÃÕŒœ–—“”‘’÷◊ÿŸ⁄¤ÐðÞþ",
    "ý·‚„‰ÂÊÁËÈÍÎÏÌÓÔ\ufffdÒÚÛÙıˆ˜¯˘˙˚¸˝˛ˇ"]

/-- Latin letters with those of Croatian, of the `mac` family. -/
def macCroatian : CodePage where
  names := ["maccroatian"]
  first := 0x80
  rows := [
    "ÄÅÇÉÑÖÜáàâäãåçéèêëíìîïñóòôöõúùûü",
    "†°¢£§•¶ß®Š™´¨≠ŽØ∞±≤≥∆µ∂∑∏š∫ªºΩžø",
    "¿¡¬√ƒ≈Ć«Č…\u00a0ÀÃÕŒœĐ—“”‘’÷◊\ufffd©⁄¤‹›Æ»",
    "–·‚„‰ÂćÁčÈÍÎÏÌÓÔđÒÚÛÙıˆ˜¯πË˚¸Êæˇ"]

/-- Latin letters with those of Romanian, of the `mac` family. -/
def macRomania : CodePage where
  names := ["macromania"]
  first := 0x80
  rows := [
    "ÄÅÇÉÑÖÜáàâäãåçéèêëíìîïñóòôöõúùûü",
    "†°¢£§•¶ß®©™´¨≠ĂŞ∞±≤≥¥µ∂∑∏π∫ªºΩăş",
    "¿¡¬√ƒ≈∆«»…\u00a0ÀÃÕŒœ–—“”‘’÷◊ÿŸ⁄¤‹›Ţţ",
    "‡·‚„‰ÂÊÁËÈÍÎÏÌÓÔ\ufffdÒÚÛÙıˆ˜¯˘˙˚¸˝˛ˇ"]

/-- Cyrillic letters, of the `mac` family. -/
def macCyrillic : CodePage where
  names := ["maccyrillic"]
  first := 0x80
  rows := [
    "АБВГДЕЖЗИЙКЛМНОПРСТУФХЦЧШЩЪЫЬЭЮЯ",
    "†°¢£§•¶І®©™Ђђ≠Ѓѓ∞±≤≥іµ∂ЈЄєЇїЉљЊњ",
    "јЅ¬√ƒ≈∆«»…\u00a0ЋћЌќѕ–—“”‘’÷„ЎўЏџ№Ёёя",
    "абвгдежзийклмнопрстуфхцчшщъыьэю¤"]

/-- Cyrillic letters with those of Ukrainian, of the `mac` family. -/
def macUkraine : CodePage where
  names := ["macukraine"]
  first := 0x80
  rows := [
    "АБВГДЕЖЗИЙКЛМНОПРСТУФХЦЧШЩЪЫЬЭЮЯ",
    "†°Ґ£§•¶І®©™Ђђ≠Ѓѓ∞±≤≥іµґЈЄєЇїЉљЊњ",
    "јЅ¬√ƒ≈∆«»…\u00a0ЋћЌќѕ–—“”‘’÷„ЎўЏџ№Ёёя",
    "абвгдежзийклмнопрстуфхцчшщъыьэю¤"]

/-- Greek letters, of the `mac` family. -/
def macGreek : CodePage where
  names := ["macgreek"]
  first := 0x80
  rows := [
    "Ä¹²É³ÖÜ΅àâä΄¨çéèêë£™îï•½‰ôö¦€ùûü",
    "†ΓΔΘΛΞΠß®©ΣΪ§≠°·Α±≤≥¥ΒΕΖΗΙΚΜΦΫΨΩ",
    "άΝ¬ΟΡ≈Τ«»…\u00a0ΥΧΆΈœ–―“”‘’÷ΉΊΌΎέήίόΏ",
    "ύαβψδεφγηιξκλμνοπώρστθωςχυζϊϋΐΰ"]

/-- Latin letters with those of Turkish, of the `mac` family. -/
def macTurkish : CodePage where
  names := ["macturkish"]
  first := 0x80
  rows := [
    "ÄÅÇÉÑÖÜáàâäãåçéèêëíìîïñóòôöõúùûü",
    "†°¢£§•¶ß®©™´¨≠ÆØ∞±≤≥¥µ∂∑∏π∫ªºΩæø",
    "¿¡¬√ƒ≈∆«»…\u00a0ÀÃÕŒœ–—“”‘’÷◊ÿŸĞ¤İıŞş",
    "‡·‚„‰ÂÊÁËÈÍÎÏÌÓÔ\ufffdÒÚÛÙ\ufffdˆ˜¯˘˙˚¸˝˛ˇ"]

/-- The code pages that have names. -/
def all : List CodePage := [
  iso8859Part2, iso8859Part3, iso8859Part4, iso8859Part5, iso8859Part6, iso8859Part7,
  iso8859Part8, iso8859Part9, iso8859Part10, iso8859Part11, iso8859Part13, iso8859Part14,
  iso8859Part15, iso8859Part16, koi8R, koi8U, koi8RU, koi8T, windows1250, windows1251,
  windows1252, windows1253, windows1254, windows1255, windows1256, windows1257, windows1258,
  windows874, tis620, codePage850, codePage862, codePage866, codePage1131, codePage1133, viscii,
  tcvn, narrowJapanese, armscii8, georgianAcademy, georgianStandard, cyrillicAsian, kazakh,
  roman8, nextStep, macRoman, macCentralEurope, macIceland, macCroatian, macRomania, macCyrillic,
  macUkraine, macGreek, macTurkish]

def named? (name : String) : Option CodePage := all.find? (name ∈ ·.names)

end CodePage

end MailMerge.Text
