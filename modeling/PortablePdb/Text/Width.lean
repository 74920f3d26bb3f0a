import PortablePdb.Text.CharWidth
import PortablePdb.Text.Emoji

namespace PortablePdb.Text

/-- The end of a sequence of letters that may be drawn as one. After a letter there may be a joiner,
and marks that can be ignored. -/
inductive Ligature where
  /-- An Arabic letter of the shape of alef, which a lam may stand before. -/
  | alef
  | lamed (isJoined : Bool)
  | ya (isJoined : Bool)
  /-- A joined Buginese ya with a vowel before it. -/
  | vowelYa
  | tifinagh (isJoined : Bool)
  /-- A Tifinagh consonant with the sign before it that joins it to another one. -/
  | linkedTifinagh
  /-- A second tone letter of Lisu. -/
  | tone
  | orkhonI (isJoined : Bool)
  /-- A Khmer letter that has a form below the line. -/
  | khmer
  deriving DecidableEq, Repr

/-- A sign that tells how the character before it is to be shown. -/
inductive Selector where
  | text
  | emoji
  deriving DecidableEq, Repr

/-- What follows a place of a text, as far as it matters for the width of what stands before. -/
inductive Context where
  | plain
  | lineFeed
  | selector (selector : Selector)
  /-- The selector of wide quotation marks. -/
  | wideSelector
  | ligature (part : Ligature) (selector : Option Selector)
  | emoji
  | tone
  | flagHalf
  | flagHalves
  /-- An emoji with a joiner before it. -/
  | joined (isSelected : Bool)
  /-- An emoji with a joiner and the frame of a key before it. -/
  | joinedKeycap (isSelected : Bool)
  /-- An emoji with a joiner and a half of a flag before it. -/
  | joinedFlagHalf
  /-- An emoji with a joiner and whole flags before it. -/
  | joinedFlags
  /-- An emoji with a joiner before it, and before that whole flags and a half of one. -/
  | joinedFlagsHalf
  /-- An emoji with a joiner and the end of a tag before it. -/
  | tag (letters digits : Nat)
  /-- The Kirat Rai vowel sign e. -/
  | vowelE
  /-- The Kirat Rai vowel sign ai. -/
  | vowelAi
  deriving DecidableEq, Repr

/-- The joiner, which has no width and joins the characters beside it. -/
def joiner : Char := '\u200d'

/-- The selector of the text form of an emoji. -/
def textSelector : Char := '\ufe0e'

/-- The selector of the emoji form of a character. -/
def emojiSelector : Char := '\ufe0f'

/-- The sign that joins two Tifinagh consonants. -/
def tifinaghLink : Char := '\u2d7f'

/-- The Arabic letters of the shape of lam. -/
def lamRanges : CharRanges :=
  [(0x644, 0x644), (0x6B5, 0x6B8), (0x76A, 0x76A), (0x8A6, 0x8A6), (0x8C7, 0x8C7)]

/-- The Arabic letters of the shape of alef. -/
def alefRanges : CharRanges :=
  [(0x622, 0x623), (0x625, 0x625), (0x627, 0x627), (0x671, 0x673), (0x675, 0x675), (0x773, 0x774),
   (0x870, 0x882)]

/-- Characters without a width that an alef and a lam do not join across. -/
def blockingRanges : CharRanges :=
  [(0x605, 0x605), (0x890, 0x891), (0x8E2, 0x8E2), (0x9BE, 0x9BE), (0x9D7, 0x9D7), (0xB3E, 0xB3E),
   (0xB57, 0xB57), (0xBBE, 0xBBE), (0xBD7, 0xBD7), (0xCC0, 0xCC0), (0xCC2, 0xCC2), (0xCC7, 0xCC8),
   (0xCCA, 0xCCB), (0xCD5, 0xCD6), (0xD3E, 0xD3E), (0xD4E, 0xD4E), (0xD57, 0xD57), (0xDCF, 0xDCF),
   (0xDDF, 0xDDF), (0x1160, 0x11FF), (0x1715, 0x1715), (0x1734, 0x1734), (0x180E, 0x180E),
   (0x1B35, 0x1B35), (0x1B3B, 0x1B3B), (0x1B3D, 0x1B3D), (0x1B43, 0x1B44), (0x1BAA, 0x1BAA),
   (0x1BF2, 0x1BF3), (0x200C, 0x200D), (0x2065, 0x2069), (0x302E, 0x302F), (0x3164, 0x3164),
   (0xA8FA, 0xA8FA), (0xA953, 0xA953), (0xA9C0, 0xA9C0), (0xD7B0, 0xD7C6), (0xD7CB, 0xD7FB),
   (0xFFA0, 0xFFA0), (0xFFF0, 0xFFF8), (0x111C0, 0x111C0), (0x111C2, 0x111C3), (0x11235, 0x11235),
   (0x1133E, 0x1133E), (0x1134D, 0x1134D), (0x11357, 0x11357), (0x113B8, 0x113B8),
   (0x113C2, 0x113C2), (0x113C5, 0x113C5), (0x113C7, 0x113C9), (0x113CF, 0x113CF),
   (0x113D1, 0x113D1), (0x114B0, 0x114B0), (0x114BD, 0x114BD), (0x115AF, 0x115AF),
   (0x116B6, 0x116B6), (0x11930, 0x11930), (0x1193D, 0x1193D), (0x1193F, 0x1193F),
   (0x11941, 0x11941), (0x11A84, 0x11A89), (0x11D46, 0x11D46), (0x11F02, 0x11F02),
   (0x11F41, 0x11F41), (0x16FF0, 0x16FF1), (0x1D165, 0x1D166), (0x1D16D, 0x1D172),
   (0xE0000, 0xE0000), (0xE0002, 0xE001F), (0xE0080, 0xE00FF), (0xE01F0, 0xE0FFF)]

/-- The Tifinagh consonants. -/
def tifinaghRanges : CharRanges :=
  [(0x2D31, 0x2D65), (0x2D6F, 0x2D6F)]

/-- The Khmer letters that have a form below the line. -/
def khmerRanges : CharRanges :=
  [(0x1780, 0x1782), (0x1784, 0x1787), (0x1789, 0x178C), (0x178E, 0x1793), (0x1795, 0x1798),
   (0x179B, 0x179D), (0x17A0, 0x17A0), (0x17A2, 0x17A2), (0x17A7, 0x17A7), (0x17AB, 0x17AC),
   (0x17AF, 0x17AF)]

/-- The first and the second tone letters of Lisu. -/
def firstToneRanges : CharRanges :=
  [(0xA4F8, 0xA4FB)]

@[inherit_doc firstToneRanges] def secondToneRanges : CharRanges :=
  [(0xA4FC, 0xA4FD)]

/-- The marks that a ligature other than that of an alef ignores. -/
def ignoredRanges : CharRanges :=
  [(0x34F, 0x34F), (0x17B4, 0x17B5), (0x180B, 0x180D), (0x180F, 0x180F), (0x200D, 0x200D),
   (0xFE00, 0xFE0F), (0xE0100, 0xE01EF)]

/-- The quotation marks that have a wide form. -/
def quotes : List Char :=
  ['\u2018', '\u2019', '\u201c', '\u201d']

namespace Ligature

/-- The end of a ligature with a joiner before it. -/
def join : Ligature → Ligature
  | lamed _ => lamed true
  | ya _ => ya true
  | tifinagh _ => tifinagh true
  | orkhonI _ => orkhonI true
  | part => part

/-- What a character adds to the width before the end of a ligature, if it belongs to it. -/
def extend (c : Char) : Ligature → Option (Int × Context)
  | alef =>
    if lamRanges.contains c then some (0, .plain)
    else if markRanges.contains c && !blockingRanges.contains c then some (0, .ligature alef none)
    else none
  | lamed isJoined => if isJoined && c == '\u05d0' then some (0, .plain) else none
  | ya isJoined => if isJoined && c == '\u1a17' then some (0, .ligature vowelYa none) else none
  | vowelYa => if c == '\u1a15' then some (0, .plain) else none
  | tifinagh isJoined =>
    if c == tifinaghLink then some (1, .ligature linkedTifinagh none)
    else if isJoined && tifinaghRanges.contains c then some (0, .plain)
    else none
  | linkedTifinagh => if tifinaghRanges.contains c then some (-1, .plain) else none
  | tone => if firstToneRanges.contains c then some (0, .plain) else none
  | orkhonI isJoined => if isJoined && c.toNat == 0x10C32 then some (0, .plain) else none
  | khmer => if c == '\u17d2' then some (-1, .plain) else none

/-- How much of the width of the end of a ligature may be taken back by what stands before it. -/
def held : Ligature → Int
  | khmer | linkedTifinagh => 1
  | _ => 0

end Ligature

namespace Context

/-- What a character adds to the width before the end of an emoji, if it belongs to it. -/
def extendEmoji (c : Char) : Context → Option (Int × Context)
  | emoji => if c == joiner then some (0, joined false) else none
  | tone =>
    if Emoji.toneBaseRanges.contains c then some (0, emoji)
    else if c == joiner then some (0, joined false)
    else none
  | flagHalf => if Emoji.flagHalfRanges.contains c then some (1, flagHalves) else none
  | flagHalves =>
    if Emoji.flagHalfRanges.contains c then some (1, flagHalves)
    else if c == joiner then some (0, joined false)
    else none
  | joined _ =>
    if c == Emoji.keycap then some (0, joinedKeycap false)
    else if Emoji.flagHalfRanges.contains c then some (1, joinedFlagHalf)
    else if Emoji.toneRanges.contains c then some (0, tone)
    else if c == Emoji.tagEnd then some (0, tag 0 0)
    else if Emoji.emojiRanges.contains c then some (0, emoji)
    else none
  | joinedFlagHalf => if Emoji.flagHalfRanges.contains c then some (-1, joinedFlags) else none
  | joinedFlags =>
    if Emoji.flagHalfRanges.contains c then some (3, joinedFlagsHalf)
    else if c == joiner then some (0, joined false)
    else none
  | joinedFlagsHalf =>
    if Emoji.flagHalfRanges.contains c then some (-1, joinedFlags)
    else if c == joiner then some (0, joined false)
    else none
  | tag letters digits =>
    if Emoji.tagLetterRanges.contains c && letters < 6 && digits == 0 then
      some (0, tag (letters + 1) 0)
    else if Emoji.tagDigitRanges.contains c && letters < 5 && digits < 3 then
      some (0, tag 0 (digits + 1))
    else if c == Emoji.blackFlag && (3 ≤ letters || digits == 3) then some (0, emoji)
    else none
  | _ => none

/-- What a character adds to the width before a vowel sign of Kirat Rai, if both make up one sign.
-/
def extendVowel (c : Char) : Context → Option (Int × Context)
  | vowelE =>
    match c.toNat with
    | 0x16D63 | 0x16D69 => some (0, plain)
    | 0x16D67 => some (0, vowelAi)
    | 0x16D68 => some (1, vowelE)
    | _ => none
  | vowelAi => if c.toNat == 0x16D63 then some (0, plain) else none
  | _ => none

/-- Whether a character before the context is to be shown as an emoji. -/
def selectsEmoji : Context → Bool
  | selector .emoji | ligature _ (some .emoji) | joined true | joinedKeycap true => true
  | _ => false

/-- Whether a character before the context is to be shown as text. -/
def selectsText : Context → Bool
  | selector .text | ligature _ (some .text) => true
  | _ => false

/-- The context without the selector at its start, for a character that has no other form. -/
def unselect : Context → Context
  | selector _ => plain
  | ligature part (some _) => ligature part none
  | joined true | joinedKeycap true => plain
  | context => context

/-- The context with a selector before it. -/
def select (s : Selector) : Context → Context
  | ligature part _ => ligature part (some s)
  | joined false => if s = .emoji then joined true else selector s
  | joinedKeycap false => if s = .emoji then joinedKeycap true else selector s
  | _ => selector s

/-- The width of a character by itself, and what it means for those before it. -/
def ofChar (c : Char) : Int × Context :=
  if c == '\u05dc' then (1, ligature (.lamed false) none)
  else if alefRanges.contains c then (1, ligature .alef none)
  else if khmerRanges.contains c then (1, ligature .khmer none)
  else if c == '\u1a10' then (1, ligature (.ya false) none)
  else if tifinaghRanges.contains c then (1, ligature (.tifinagh false) none)
  else if secondToneRanges.contains c then (1, ligature .tone none)
  else if c.toNat == 0x10C03 then (1, ligature (.orkhonI false) none)
  else if c.toNat == 0x16D67 then (1, vowelE)
  else if c.toNat == 0x16D68 then (1, vowelAi)
  else if c == '\ufe01' then (0, wideSelector)
  else if c == textSelector then (0, selector .text)
  else if c == emojiSelector then (0, selector .emoji)
  else if Emoji.flagHalfRanges.contains c then (1, flagHalf)
  else if Emoji.toneRanges.contains c then (2, tone)
  else if Emoji.emojiRanges.contains c then (2, emoji)
  else (charWidth c, plain)

/-- What a character of some script or an emoji adds to the width before a context. -/
def extend (c : Char) (context : Context) : Int × Context :=
  if c == emojiSelector then (0, context.select .emoji)
  else if c == textSelector then (0, context.select .text)
  else if context.selectsText && Emoji.textRanges.contains c then (1, plain)
  else
    match context.unselect with
    | plain => ofChar c
    | wideSelector => if quotes.contains c then (2, plain) else ofChar c
    | ligature part _ =>
      if part ≠ .alef && c == joiner then (0, ligature part.join none)
      else if part ≠ .alef && ignoredRanges.contains c then (0, ligature part none)
      else (part.extend c).getD (ofChar c)
    | context => ((context.extendEmoji c).or (context.extendVowel c)).getD (ofChar c)

/-- What a character adds to the width before a context, and the context that it makes. -/
def before (c : Char) (context : Context) : Int × Context :=
  if context.selectsEmoji && Emoji.baseRanges.contains c then
    (if context = joined true || context = joinedKeycap true then 0 else 2, emoji)
  else if c.toNat ≤ 0xA0 then
    match c with
    | '\n' => (1, lineFeed)
    | '\r' => (if context = lineFeed then 0 else 1, plain)
    | _ => (1, plain)
  else context.extend c

/-- The width of a text before a context, and the context before the text. -/
def measure (context : Context) : List Char → Int × Context
  | [] => (0, context)
  | c :: cs =>
    let (sum, context) := context.measure cs
    let (added, context) := context.before c
    (sum + added, context)

/-- How much of the width before a context may be taken back by what stands before. -/
def held : Context → Int
  | ligature part _ => part.held
  | joinedFlagHalf | joinedFlagsHalf => 1
  | _ => 0

@[simp] theorem held_plain : plain.held = 0 :=
  rfl

@[simp] theorem held_lineFeed : lineFeed.held = 0 :=
  rfl

@[simp] theorem held_emoji : emoji.held = 0 :=
  rfl

@[simp] theorem held_ligature (part : Ligature) (selector : Option Selector) :
    (ligature part selector).held = part.held :=
  rfl

theorem held_nonneg (context : Context) : 0 ≤ context.held := by
  cases context <;> simp only [held, Int.le_refl, Int.zero_le_ofNat]
  case ligature part _ => cases part <;> simp [Ligature.held]

theorem held_unselect_le (context : Context) : context.unselect.held ≤ context.held := by
  have hnonneg := held_nonneg context
  unfold unselect
  split <;> simp_all [held]

theorem held_select (s : Selector) (context : Context) :
    (context.select s).held ≤ context.held := by
  have hnonneg := held_nonneg context
  unfold select
  split
  · simp [held]
  · split <;> simp [held]
  · split <;> simp [held]
  · simpa [held] using hnonneg

theorem held_extendLigature {c : Char} {part : Ligature} {added : Int} {context : Context}
    (hextend : part.extend c = some (added, context)) : context.held ≤ part.held + added := by
  cases part <;> simp only [Ligature.extend] at hextend <;> grind [held, Ligature.held]

theorem held_extendEmoji {c : Char} {next : Context} {added : Int} {context : Context}
    (hextend : next.extendEmoji c = some (added, context)) :
    context.held ≤ next.held + added := by
  cases next <;> simp only [extendEmoji] at hextend <;> grind [held]

theorem held_extendVowel {c : Char} {next : Context} {added : Int} {context : Context}
    (hextend : next.extendVowel c = some (added, context)) :
    context.held ≤ next.held + added := by
  cases next <;> simp only [extendVowel] at hextend <;> grind [held]

theorem held_ite {p : Prop} [Decidable p] {a b : Int × Context} (ha : a.2.held ≤ a.1)
    (hb : b.2.held ≤ b.1) : (if p then a else b).2.held ≤ (if p then a else b).1 := by
  split
  · exact ha
  · exact hb

theorem held_ofChar (c : Char) : (ofChar c).2.held ≤ (ofChar c).1 := by
  unfold ofChar
  repeat' apply held_ite
  all_goals simp [held, Ligature.held]

theorem held_getD {c : Char} {extended : Option (Int × Context)} {bound : Int} (hbound : 0 ≤ bound)
    (hextended : ∀ added context, extended = some (added, context) → context.held ≤ bound + added) :
    (extended.getD (ofChar c)).2.held ≤ bound + (extended.getD (ofChar c)).1 := by
  have hofChar := held_ofChar c
  cases extended with
  | none => simp only [Option.getD_none]; omega
  | some pair => exact hextended _ _ rfl

theorem held_extend (c : Char) (context : Context) :
    (context.extend c).2.held ≤ context.held + (context.extend c).1 := by
  have hunselect := held_unselect_le context
  have hnonneg := held_nonneg context
  have hofChar := held_ofChar c
  unfold extend
  split
  · simpa using held_select .emoji context
  split
  · simpa using held_select .text context
  split
  · simp only [held_plain]
    omega
  split
  · omega
  · split
    · simp only [held_plain]
      omega
    · omega
  · next part _ hpart =>
    rw [hpart, held_ligature] at hunselect
    split
    · have hjoined : part.join.held = part.held := by cases part <;> rfl
      simp only [held_ligature, hjoined]
      omega
    split
    · simp only [held_ligature]
      omega
    · exact held_getD hnonneg fun added context hextend => by
        have := held_extendLigature hextend
        omega
  · refine held_getD hnonneg fun added next hextend => ?_
    rcases Option.or_eq_some_iff.mp hextend with hemoji | ⟨_, hvowel⟩
    · have := held_extendEmoji hemoji
      omega
    · have := held_extendVowel hvowel
      omega

theorem held_before (c : Char) (context : Context) :
    (context.before c).2.held ≤ context.held + (context.before c).1 := by
  have hnonneg := held_nonneg context
  unfold before
  split
  · simp only [held_emoji]
    split <;> omega
  split
  · split
    · simp only [held_lineFeed]
      omega
    · simp only [held_plain]
      split <;> omega
    · simp only [held_plain]
      omega
  · exact held_extend c context

theorem held_measure (cs : List Char) (context : Context) :
    (context.measure cs).2.held ≤ context.held + (context.measure cs).1 := by
  induction cs with
  | nil => simp [measure]
  | cons c cs ih =>
    have hbefore := held_before c (context.measure cs).2
    simp only [measure]
    omega

theorem measure_nonneg (cs : List Char) : 0 ≤ (plain.measure cs).1 := by
  have hmeasure := held_measure cs plain
  have hnonneg := held_nonneg (plain.measure cs).2
  rw [held_plain] at hmeasure
  omega

theorem measure_append (front rest : List Char) (context : Context) :
    context.measure (front ++ rest) =
      (((context.measure rest).2.measure front).1 + (context.measure rest).1,
        ((context.measure rest).2.measure front).2) := by
  induction front with
  | nil => simp [measure]
  | cons c front ih =>
    simp only [List.cons_append, measure, ih]
    congr 1
    omega

theorem before_blank (context : Context) : context.before ' ' = (1, plain) := by
  have hbase : Emoji.baseRanges.contains ' ' = false := by decide
  simp only [before, hbase, Bool.and_false]
  rfl

theorem measure_blanks (n : Nat) (context : Context) :
    context.measure (List.replicate n ' ') = ((n : Int), if n = 0 then context else plain) := by
  induction n with
  | zero => rfl
  | succ n ih =>
    simp [List.replicate_succ, measure, ih, before_blank]

end Context

/-- The number of columns that a text takes. It is measured from its end, since what stands after a
character tells whether they are drawn as one sign. -/
def width (cs : List Char) : Nat :=
  (Context.plain.measure cs).1.toNat

theorem width_append_blanks (cs : List Char) (n : Nat) :
    width (cs ++ List.replicate n ' ') = width cs + n := by
  have hnonneg := Context.measure_nonneg cs
  simp only [width, Context.measure_append, Context.measure_blanks, ite_self]
  omega

theorem width_blanks_append (cs : List Char) (n : Nat) :
    width (List.replicate n ' ' ++ cs) = width cs + n := by
  have hnonneg := Context.measure_nonneg cs
  simp only [width, Context.measure_append, Context.measure_blanks]
  omega

end PortablePdb.Text
