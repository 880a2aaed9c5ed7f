import ProvenTables.Text.CharWidth

/-!
# Ligatures

Characters of some scripts that are shown as one sign with the character before them, and so take
fewer columns together than apart.
-/

namespace ProvenTables.Text

/-- The last part of a ligature. `joined` tells whether a zero-width joiner stands before it. -/
inductive LigatureEnd
  | alef
  | lamed (joined : Bool)
  | ya (joined : Bool)
  /-- The vowel sign i, joined to the letter ya. -/
  | vowelYa
  | tifinagh (joined : Bool)
  /-- The Tifinagh consonant joiner with a consonant after it. -/
  | joinerTifinagh
  | lisuTone
  | orkhonI (joined : Bool)
  | khmerLetter
  deriving DecidableEq

/-- The joiner of zero width. -/
def joiner : Char := '\u200D'

/-- The letters lam of Arabic. -/
def isLam (c : Char) : Bool :=
  inRanges [(0x644, 0x644), (0x6B5, 0x6B8), (0x76A, 0x76A), (0x8A6, 0x8A6), (0x8C7, 0x8C7)] c.toNat

/-- The letters alef of Arabic, which are joined to a lam before them. -/
def isAlef (c : Char) : Bool :=
  inRanges [(0x622, 0x623), (0x625, 0x625), (0x627, 0x627), (0x671, 0x673), (0x675, 0x675),
    (0x773, 0x774), (0x870, 0x882)] c.toNat

/-- The consonants of Tifinagh, which can be joined. -/
def isTifinaghConsonant (c : Char) : Bool :=
  inRanges [(0x2D31, 0x2D65), (0x2D6F, 0x2D6F)] c.toNat

/-- Whether `c` is a Khmer letter that can be written below another one. -/
def isKhmerSubscript (c : Char) : Bool :=
  inRanges
    [(0x1780, 0x1782), (0x1784, 0x1787), (0x1789, 0x178C), (0x178E, 0x1793), (0x1795, 0x1798),
      (0x179B, 0x179D), (0x17A0, 0x17A0), (0x17A2, 0x17A2), (0x17A7, 0x17A7), (0x17AB, 0x17AC),
      (0x17AF, 0x17AF)] c.toNat

/-- Whether `c` may stand between the parts of a ligature that is not Arabic. -/
def isLigatureTransparent (c : Char) : Bool :=
  inRanges
    [(0x34F, 0x34F), (0x17B4, 0x17B5), (0x180B, 0x180D), (0x180F, 0x180F), (0xFE00, 0xFE0F),
      (0xE0100, 0xE01EF)] c.toNat

/-- The characters of no width that separate Arabic letters. -/
def opaqueRanges : List (Nat × Nat) :=
  [(0x605, 0x605), (0x890, 0x891), (0x8E2, 0x8E2), (0x9BE, 0x9BE), (0x9D7, 0x9D7), (0xB3E, 0xB3E),
    (0xB57, 0xB57), (0xBBE, 0xBBE), (0xBD7, 0xBD7), (0xCC0, 0xCC0), (0xCC2, 0xCC2), (0xCC7, 0xCC8),
    (0xCCA, 0xCCB), (0xCD5, 0xCD6), (0xD3E, 0xD3E), (0xD4E, 0xD4E), (0xD57, 0xD57), (0xDCF, 0xDCF),
    (0xDDF, 0xDDF), (0x1160, 0x11FF), (0x1715, 0x1715), (0x1734, 0x1734), (0x180E, 0x180E),
    (0x1B35, 0x1B35), (0x1B3B, 0x1B3B), (0x1B3D, 0x1B3D), (0x1B43, 0x1B44), (0x1BAA, 0x1BAA),
    (0x1BF2, 0x1BF3), (0x200C, 0x200D), (0x2065, 0x2069), (0x302E, 0x302F), (0x3164, 0x3164),
    (0xA8FA, 0xA8FA), (0xA953, 0xA953), (0xA9C0, 0xA9C0), (0xD7B0, 0xD7C6), (0xD7CB, 0xD7FB),
    (0xFFA0, 0xFFA0), (0xFFF0, 0xFFF8), (0x111C0, 0x111C0), (0x111C2, 0x111C3), (0x11235, 0x11235),
    (0x1133E, 0x1133E), (0x1134D, 0x1134D), (0x11357, 0x11357), (0x113B8, 0x113B8),
    (0x113C2, 0x113C2), (0x113C5, 0x113C5), (0x113C7, 0x113C9), (0x113CF, 0x113CF),
    (0x113D1, 0x113D1), (0x114B0, 0x114B0), (0x114BD, 0x114BD), (0x115AF, 0x115AF),
    (0x116B6, 0x116B6), (0x11930, 0x11930), (0x1193D, 0x1193D), (0x1193F, 0x1193F),
    (0x11941, 0x11941), (0x11A84, 0x11A89), (0x11D46, 0x11D46), (0x11F02, 0x11F02),
    (0x11F41, 0x11F41), (0x16FF0, 0x16FF1), (0x1D165, 0x1D166), (0x1D16D, 0x1D172),
    (0xE0000, 0xE0000), (0xE0002, 0xE001F), (0xE0080, 0xE00FF), (0xE01F0, 0xE0FFF)]

/-- Whether `c` may stand between Arabic letters that are joined. -/
def isJoiningTransparent (c : Char) : Bool :=
  charWidth c == 0 && !inRanges opaqueRanges c.toNat

namespace LigatureEnd

/-- The ligature that a character can be the last part of. -/
def ofChar? (c : Char) : Option LigatureEnd :=
  if c = '\u05DC' then some (.lamed false)
  else if c = '\u1A10' then some (.ya false)
  else if c = '\uA4FC' ∨ c = '\uA4FD' then some .lisuTone
  else if c.toNat = 0x10C03 then some (.orkhonI false)
  else if isAlef c then some .alef
  else if isKhmerSubscript c then some .khmerLetter
  else if isTifinaghConsonant c then some (.tifinagh false)
  else none

/-- The end with a zero-width joiner before it. -/
def afterJoiner : LigatureEnd → LigatureEnd
  | .lamed _ => .lamed true
  | .ya _ => .ya true
  | .tifinagh _ => .tifinagh true
  | .orkhonI _ => .orkhonI true
  | e => e

/-- The end with a character before it that takes no part in the ligature but leaves it whole. -/
def afterTransparent? (e : LigatureEnd) (c : Char) : Option LigatureEnd :=
  if e = .alef then none
  else if c = joiner then some e.afterJoiner
  else if isLigatureTransparent c then some e
  else none

/-- The columns that a character adds to the end of a ligature, and the end that the two are of a
longer ligature; `none` if the character does not join. The subscript sign and a consonant before a
joiner take back a column that was counted for what follows them. -/
def precededBy? (e : LigatureEnd) (c : Char) : Option (Int × Option LigatureEnd) :=
  match e with
  | .alef =>
    if isLam c then some (0, none)
    else if isJoiningTransparent c then some (0, some .alef)
    else none
  | .lamed true => if c = '\u05D0' then some (0, none) else none
  | .ya true => if c = '\u1A17' then some (0, some .vowelYa) else none
  | .vowelYa => if c = '\u1A15' then some (0, none) else none
  | .tifinagh joined =>
    if c = '\u2D7F' then some (1, some .joinerTifinagh)
    else if joined && isTifinaghConsonant c then some (0, none)
    else none
  | .joinerTifinagh => if isTifinaghConsonant c then some (-1, none) else none
  | .lisuTone => if 0xA4F8 ≤ c.toNat ∧ c.toNat ≤ 0xA4FB then some (0, none) else none
  | .orkhonI true => if c.toNat = 0x10C32 then some (0, none) else none
  | .khmerLetter => if c = '\u17D2' then some (-1, none) else none
  | _ => none

end LigatureEnd

end ProvenTables.Text
