import Nospacekey.Ipc.Clause

/-! Local notation changes: katakana, half-width kana and the ASCII widths of the function keys. -/

namespace Nospacekey

inductive Notation where
  | hiragana
  | katakana
  | hankakuKana
  | zenkakuEisu
  | hankakuEisu
  deriving DecidableEq, Repr

/-- The muhenkan key rotates through the three kana notations, entering at katakana. -/
def nextNotation : Option Notation → Notation
  | some .katakana => .hankakuKana
  | some .hankakuKana => .hiragana
  | _ => .katakana

/-- Hiragana with a katakana counterpart is mapped onto it, and nothing else changes. -/
def toKatakana (s : Text) : Text :=
  s.map fun c => if 0x3041 ≤ c.toNat ∧ c.toNat ≤ 0x3096 then Char.ofNat (c.toNat + 0x60) else c

/-- Half-width spellings, where a sound mark becomes a second unit. -/
def hankakuKanaTable : List (Char × Text) :=
  [('あ', ['ｱ']), ('い', ['ｲ']), ('う', ['ｳ']), ('え', ['ｴ']), ('お', ['ｵ']), ('か', ['ｶ']),
   ('き', ['ｷ']), ('く', ['ｸ']), ('け', ['ｹ']), ('こ', ['ｺ']), ('さ', ['ｻ']), ('し', ['ｼ']),
   ('す', ['ｽ']), ('せ', ['ｾ']), ('そ', ['ｿ']), ('た', ['ﾀ']), ('ち', ['ﾁ']), ('つ', ['ﾂ']),
   ('て', ['ﾃ']), ('と', ['ﾄ']), ('な', ['ﾅ']), ('に', ['ﾆ']), ('ぬ', ['ﾇ']), ('ね', ['ﾈ']),
   ('の', ['ﾉ']), ('は', ['ﾊ']), ('ひ', ['ﾋ']), ('ふ', ['ﾌ']), ('へ', ['ﾍ']), ('ほ', ['ﾎ']),
   ('ま', ['ﾏ']), ('み', ['ﾐ']), ('む', ['ﾑ']), ('め', ['ﾒ']), ('も', ['ﾓ']), ('や', ['ﾔ']),
   ('ゆ', ['ﾕ']), ('よ', ['ﾖ']), ('ら', ['ﾗ']), ('り', ['ﾘ']), ('る', ['ﾙ']), ('れ', ['ﾚ']),
   ('ろ', ['ﾛ']), ('わ', ['ﾜ']), ('を', ['ｦ']), ('ん', ['ﾝ']), ('が', ['ｶ', 'ﾞ']),
   ('ぎ', ['ｷ', 'ﾞ']), ('ぐ', ['ｸ', 'ﾞ']), ('げ', ['ｹ', 'ﾞ']), ('ご', ['ｺ', 'ﾞ']),
   ('ざ', ['ｻ', 'ﾞ']), ('じ', ['ｼ', 'ﾞ']), ('ず', ['ｽ', 'ﾞ']), ('ぜ', ['ｾ', 'ﾞ']),
   ('ぞ', ['ｿ', 'ﾞ']), ('だ', ['ﾀ', 'ﾞ']), ('ぢ', ['ﾁ', 'ﾞ']), ('づ', ['ﾂ', 'ﾞ']),
   ('で', ['ﾃ', 'ﾞ']), ('ど', ['ﾄ', 'ﾞ']), ('ば', ['ﾊ', 'ﾞ']), ('び', ['ﾋ', 'ﾞ']),
   ('ぶ', ['ﾌ', 'ﾞ']), ('べ', ['ﾍ', 'ﾞ']), ('ぼ', ['ﾎ', 'ﾞ']), ('ぱ', ['ﾊ', 'ﾟ']),
   ('ぴ', ['ﾋ', 'ﾟ']), ('ぷ', ['ﾌ', 'ﾟ']), ('ぺ', ['ﾍ', 'ﾟ']), ('ぽ', ['ﾎ', 'ﾟ']),
   ('ゔ', ['ｳ', 'ﾞ']), ('ぁ', ['ｧ']), ('ぃ', ['ｨ']), ('ぅ', ['ｩ']), ('ぇ', ['ｪ']), ('ぉ', ['ｫ']),
   ('ゃ', ['ｬ']), ('ゅ', ['ｭ']), ('ょ', ['ｮ']), ('っ', ['ｯ']), ('ー', ['ｰ']), ('。', ['｡']),
   ('、', ['､']), ('「', ['｢']), ('」', ['｣']), ('・', ['･'])]

/-- Hiragana and its punctuation in half-width katakana, with other characters passed through. -/
def toHankakuKana (s : Text) : Text :=
  s.flatMap fun c => (hankakuKanaTable.lookup c).getD [c]

/-- The mechanical full-width image of a printable ASCII character. -/
def zenkakuOf (c : Char) : Char := Char.ofNat (c.toNat - 0x21 + 0xFF01)

/-- Printable ASCII in full width, with other characters passed through. -/
def toZenkakuAscii (s : Text) : Text :=
  s.map fun c =>
    if c.toNat = 0x20 then '\u3000'
    else if 0x21 ≤ c.toNat ∧ c.toNat ≤ 0x7E then zenkakuOf c
    else c

/-- Full-width ASCII folded back to ASCII. -/
def foldWidth (ch : Char) : Char :=
  if ch.toNat = 0x3000 then ' '
  else if 0xFF01 ≤ ch.toNat ∧ ch.toNat ≤ 0xFF5E then Char.ofNat (ch.toNat - 0xFEE0)
  else ch

/-- The letter case of one rotation step: lower, upper, or an initial capital. -/
def asciiCase (step : Nat) : Bool → Text → Text
  | _, [] => []
  | first, ch :: rest =>
    let ch := foldWidth ch
    if !ch.isAlpha then ch :: asciiCase step first rest
    else
      let uppercase := step = 1 || (step = 2 && first)
      (if uppercase then ch.toUpper else ch.toLower) :: asciiCase step false rest

end Nospacekey
