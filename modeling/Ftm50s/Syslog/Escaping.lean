import Ftm50s.Lib.Entity
import Ftm50s.Syslog.Pages
import Mathlib.Data.List.Infix

set_option autoImplicit false

namespace Ftm50s.Syslog

open Lib.Text Lib.Filter Lib.Entity

-- The answer is declared as ISO-8859-1, so one byte is one character.
def latin (text : Bytes) : List Char := text.map Char.ofUInt8

def isControl (c : UInt8) : Bool := c < 32 || (127 ≤ c && c < 160)

def isHexDigit (c : Char) : Bool := c.isDigit || ('a' ≤ c && c ≤ 'f') || ('A' ≤ c && c ≤ 'F')

def digitValue (c : Char) : Nat :=
  if c.isDigit then c.toNat - 48 else if 'a' ≤ c then c.toNat - 87 else c.toNat - 55

def numberOf (base : Nat) (digits : List Char) : Nat := digits.foldl (fun sum c => sum * base + digitValue c) 0

-- XML: the production Char, the five predefined entities and the references by
-- number. A document with another reference is not well-formed.
def isXmlNumber (n : Nat) : Bool :=
  n == 9 || n == 10 || n == 13 || (32 ≤ n && n < 0xD800) || (0xE000 ≤ n && n < 0xFFFE) || (0x10000 ≤ n && n < 0x110000)

def xmlEntities : List (List Char × Char) :=
  [("lt".toList, '<'), ("gt".toList, '>'), ("amp".toList, '&'), ("apos".toList, Char.ofNat 39), ("quot".toList, '"')]

def xmlNumber (base : Nat) (isDigit : Char → Bool) (digits : List Char) : Option Char :=
  if digits ≠ [] ∧ digits.all isDigit = true ∧ isXmlNumber (numberOf base digits) = true then
    some (Char.ofNat (numberOf base digits))
  else none

def xmlValue (body : List Char) : Option Char :=
  match body with
  | '#' :: 'x' :: digits => xmlNumber 16 isHexDigit digits
  | '#' :: digits => xmlNumber 10 Char.isDigit digits
  | name => xmlEntities.lookup name

def xmlReference (text : List Char) : Option (Nat × List Char) :=
  let body := text.takeWhile (· ≠ ';')
  if body.length < text.length then (xmlValue body).map fun c => (body.length + 1, [c]) else none

def referencesDefined : List Char → Bool
  | [] => true
  | c :: rest => (c != '&' || (xmlReference rest).isSome) && referencesDefined rest

def wellFormed (text : List Char) : Bool :=
  text.all (fun c => isXmlNumber c.toNat) && !text.contains '<' && !decide ("]]>".toList <:+: text) &&
    referencesDefined text

-- nodeValue of a text node; none when the document has no tree
def decodeXml (text : List Char) : Option (List Char) :=
  if wellFormed text then some (expand '&' xmlReference text) else none

-- HTML: the table of named references is the browser's. Its names have letters
-- and digits and may end in a semicolon, and no name is shorter than its value.
structure NamedRefs where
  lookup : List Char → Option (List Char)
  letters : ∀ name value, lookup name = some value → ∀ c ∈ name.dropLast, c.isAlphanum = true
  ends : ∀ name value, lookup name = some value → ∀ c ∈ name, c.isAlphanum = true ∨ c = ';'
  short : ∀ name value, lookup name = some value → value.length ≤ name.length
  lt : lookup "lt;".toList = some ['<']
  gt : lookup "gt;".toList = some ['>']

-- The longest name in front of the text, of at most so many characters
def NamedRefs.longest (refs : NamedRefs) (text : List Char) : Nat → Option (Nat × List Char)
  | 0 => none
  | n + 1 =>
      match refs.lookup (text.take (n + 1)) with
      | some value => some (n + 1, value)
      | none => refs.longest text n

-- References to the C1 controls are read as Windows-1252.
def c1Numbers : List (Nat × Nat) :=
  [(0x80, 0x20AC), (0x82, 0x201A), (0x83, 0x0192), (0x84, 0x201E), (0x85, 0x2026), (0x86, 0x2020), (0x87, 0x2021),
    (0x88, 0x02C6), (0x89, 0x2030), (0x8A, 0x0160), (0x8B, 0x2039), (0x8C, 0x0152), (0x8E, 0x017D), (0x91, 0x2018),
    (0x92, 0x2019), (0x93, 0x201C), (0x94, 0x201D), (0x95, 0x2022), (0x96, 0x2013), (0x97, 0x2014), (0x98, 0x02DC),
    (0x99, 0x2122), (0x9A, 0x0161), (0x9B, 0x203A), (0x9C, 0x0153), (0x9E, 0x017E), (0x9F, 0x0178)]

def numericChar (n : Nat) : Char :=
  if n = 0 ∨ 0x10FFFF < n ∨ (0xD800 ≤ n ∧ n < 0xE000) then Char.ofNat 0xFFFD
  else Char.ofNat ((c1Numbers.lookup n).getD n)

-- The digits behind the mark and so many characters, with the semicolon if there is one
def numericReference (opened base : Nat) (isDigit : Char → Bool) (text : List Char) : Option (Nat × List Char) :=
  let digits := text.takeWhile isDigit
  if digits = [] then none
  else
    let closed := if text[digits.length]? = some ';' then 1 else 0
    some (opened + (digits.length + closed), [numericChar (numberOf base digits)])

def htmlReference (refs : NamedRefs) (text : List Char) : Option (Nat × List Char) :=
  match text with
  | '#' :: 'x' :: rest => numericReference 2 16 isHexDigit rest
  | '#' :: 'X' :: rest => numericReference 2 16 isHexDigit rest
  | '#' :: rest => numericReference 1 10 Char.isDigit rest
  | name => refs.longest name name.length

-- The text that innerHTML shows for a log without markup. The closing tag behind
-- it begins with a character that belongs to no reference.
def decodeHtml (refs : NamedRefs) (text : List Char) : List Char := expand '&' (htmlReference refs) text

-- The node is no markup, and the page shows the line.
def Survives (refs : NamedRefs) (line : Bytes) : Prop :=
  ∃ node, decodeXml (latin (escape line)) = some node ∧ '<' ∉ node ∧ decodeHtml refs node = latin line

-- What the five commands make of one byte. The third one rewrites the output of
-- the first two.
def escapeByte (c : UInt8) : Bytes :=
  if c = 60 then ascii "&amp;gt;"
  else if c = 62 then ascii "&amp;lt;"
  else if c = 38 then ascii "&amp;"
  else if c = 39 then ascii "&apos;"
  else if c = 34 then ascii "&quot;"
  else [c]

theorem escape_bytes (line : Bytes) : escape line = line.flatMap escapeByte := by
  rw [escape, replace_one, replace_one, replace_one, replace_one, replace_one]
  simp only [List.flatMap_assoc]
  congr 1
  funext c
  unfold escapeByte
  by_cases less : c = 60
  · subst less; rfl
  by_cases more : c = 62
  · subst more; rfl
  by_cases amp : c = 38
  · subst amp; rfl
  by_cases apos : c = 39
  · subst apos; rfl
  by_cases quot : c = 34
  · subst quot; rfl
  simp [less, more, amp, apos, quot]

theorem escape_cons (c : UInt8) (line : Bytes) : escape (c :: line) = escapeByte c ++ escape line := by
  rw [escape_bytes, escape_bytes, List.flatMap_cons]

theorem escape_byte_cases (c : UInt8) :
    c = 60 ∨ c = 62 ∨ c = 38 ∨ c = 39 ∨ c = 34 ∨
      (c ≠ 60 ∧ c ≠ 62 ∧ c ≠ 38 ∧ escapeByte c = [c]) := by
  unfold escapeByte
  grind

theorem latin_number (c : UInt8) : (Char.ofUInt8 c).toNat = c.toNat := UInt8.toNat_toUInt32 c

theorem latin_inj (c d : UInt8) (same : Char.ofUInt8 c = Char.ofUInt8 d) : c = d := by
  have numbers := congrArg Char.toNat same
  rw [latin_number, latin_number] at numbers
  exact UInt8.toNat_inj.mp numbers

theorem latin_mem (c : UInt8) (text : Bytes) : Char.ofUInt8 c ∈ latin text ↔ c ∈ text := by
  constructor
  · intro member
    obtain ⟨d, found, same⟩ := List.mem_map.mp member
    rwa [← latin_inj d c same]
  · exact List.mem_map_of_mem

theorem escape_mem (line : Bytes) (plain : ∀ c ∈ line, isControl c = false) (c : UInt8) (member : c ∈ escape line) :
    32 ≤ c ∧ c ≠ 60 ∧ c ≠ 62 := by
  rw [escape_bytes, List.mem_flatMap] at member
  obtain ⟨b, found, inside⟩ := member
  have letters : ∀ image ∈ [ascii "&amp;gt;", ascii "&amp;lt;", ascii "&amp;", ascii "&apos;", ascii "&quot;"],
      ∀ d ∈ image, 32 ≤ d ∧ d ≠ 60 ∧ d ≠ 62 := by decide +kernel
  obtain rfl | rfl | rfl | rfl | rfl | ⟨less, more, _, same⟩ := escape_byte_cases b
  · exact letters (escapeByte 60) (by decide) c inside
  · exact letters (escapeByte 62) (by decide) c inside
  · exact letters (escapeByte 38) (by decide) c inside
  · exact letters (escapeByte 39) (by decide) c inside
  · exact letters (escapeByte 34) (by decide) c inside
  · have this : c = b := by simpa [same] using inside
    subst this
    have printed : ¬ c < 32 := by
      have := plain c found
      simp [isControl] at this
      simpa using this.1
    exact ⟨by simpa using printed, less, more⟩

theorem xml_reference_named (name rest : List Char) (c : Char) (plain : ';' ∉ name) (known : xmlValue name = some c) :
    xmlReference (name ++ ';' :: rest) = some (name.length + 1, [c]) := by
  have body : (name ++ ';' :: rest).takeWhile (· ≠ ';') = name := by
    rw [List.takeWhile_append_of_pos]
    · simp
    · intro d member
      simpa using fun same : d = ';' => plain (same ▸ member)
  rw [xmlReference, body, known, if_pos (by simp)]
  rfl

theorem xml_expand_named (name rest : List Char) (c : Char) (plain : ';' ∉ name) (known : xmlValue name = some c) :
    expand '&' xmlReference ('&' :: (name ++ ';' :: rest)) = c :: expand '&' xmlReference rest := by
  rw [expand_reference _ _ _ (xml_reference_named name rest c plain known), List.append_cons, List.drop_left' (by simp)]
  rfl

theorem references_letters (text rest : List Char) (absent : '&' ∉ text) :
    referencesDefined (text ++ rest) = referencesDefined rest := by
  induction text with
  | nil => rfl
  | cons d text ih =>
      obtain ⟨other, later⟩ : '&' ≠ d ∧ '&' ∉ text := by simpa using absent
      simp [referencesDefined, Ne.symm other, ih later]

theorem references_named (name rest : List Char) (c : Char) (plain : ';' ∉ name) (known : xmlValue name = some c)
    (letters : '&' ∉ name) : referencesDefined ('&' :: (name ++ ';' :: rest)) = referencesDefined rest := by
  rw [referencesDefined, xml_reference_named name rest c plain known, List.append_cons,
    references_letters _ rest (by simpa using letters)]
  rfl

-- What the node has for the angle brackets
def nodeImage (c : Char) : Option (List Char) :=
  if c = '<' then some "gt;".toList else if c = '>' then some "lt;".toList else none

theorem xml_byte (c : UInt8) (rest : List Char) :
    expand '&' xmlReference (latin (escapeByte c) ++ rest) =
        quote '&' nodeImage [Char.ofUInt8 c] ++ expand '&' xmlReference rest ∧
      referencesDefined (latin (escapeByte c) ++ rest) = referencesDefined rest := by
  obtain rfl | rfl | rfl | rfl | rfl | ⟨less, more, amp, same⟩ := escape_byte_cases c
  · have step := xml_expand_named "amp".toList ("gt;".toList ++ rest) '&' (by decide) rfl
    rw [expand_letters "gt;".toList rest (by decide)] at step
    exact ⟨step, references_named "amp".toList ("gt;".toList ++ rest) '&' (by decide) rfl (by decide)⟩
  · have step := xml_expand_named "amp".toList ("lt;".toList ++ rest) '&' (by decide) rfl
    rw [expand_letters "lt;".toList rest (by decide)] at step
    exact ⟨step, references_named "amp".toList ("lt;".toList ++ rest) '&' (by decide) rfl (by decide)⟩
  · exact ⟨xml_expand_named "amp".toList rest '&' (by decide) rfl,
      references_named "amp".toList rest '&' (by decide) rfl (by decide)⟩
  · exact ⟨xml_expand_named "apos".toList rest (Char.ofNat 39) (by decide) rfl,
      references_named "apos".toList rest (Char.ofNat 39) (by decide) rfl (by decide)⟩
  · exact ⟨xml_expand_named "quot".toList rest '"' (by decide) rfl,
      references_named "quot".toList rest '"' (by decide) rfl (by decide)⟩
  · have marked : Char.ofUInt8 c ≠ '&' := fun equal => amp (latin_inj c 38 equal)
    have plain : nodeImage (Char.ofUInt8 c) = none := by
      have left : Char.ofUInt8 c ≠ '<' := fun equal => less (latin_inj c 60 equal)
      have right : Char.ofUInt8 c ≠ '>' := fun equal => more (latin_inj c 62 equal)
      simp [nodeImage, left, right]
    rw [same, quote_plain _ [] plain]
    exact ⟨expand_letter _ rest marked, by simp [latin, referencesDefined, marked]⟩

theorem xml_line (line : Bytes) :
    expand '&' xmlReference (latin (escape line)) = quote '&' nodeImage (latin line) ∧
      referencesDefined (latin (escape line)) = true := by
  induction line with
  | nil => exact ⟨rfl, rfl⟩
  | cons c line ih =>
      have split : latin (escape (c :: line)) = latin (escapeByte c) ++ latin (escape line) := by
        rw [escape_cons, latin, List.map_append]
        rfl
      obtain ⟨expanded, defined⟩ := xml_byte c (latin (escape line))
      rw [split, expanded, defined, ih.1, ih.2]
      exact ⟨by simp [quote, latin], rfl⟩

theorem escape_well_formed (line : Bytes) (plain : ∀ c ∈ line, isControl c = false) :
    wellFormed (latin (escape line)) = true := by
  have letters := escape_mem line plain
  have legal : (latin (escape line)).all (fun c => isXmlNumber c.toNat) = true := by
    rw [List.all_eq_true]
    intro c member
    obtain ⟨b, found, rfl⟩ := List.mem_map.mp member
    have printed : 32 ≤ b.toNat := (letters b found).1
    have bound := b.toNat_lt
    simp [isXmlNumber, latin_number]
    omega
  have left : (latin (escape line)).contains '<' = false := by
    simpa using fun member : '<' ∈ latin (escape line) => (letters 60 ((latin_mem 60 _).mp member)).2.1 rfl
  have right : '>' ∉ latin (escape line) := fun member => (letters 62 ((latin_mem 62 _).mp member)).2.2 rfl
  have ended : decide ("]]>".toList <:+: latin (escape line)) = false :=
    decide_eq_false fun inside => right (inside.subset (by decide))
  rw [wellFormed, legal, left, ended, (xml_line line).2]
  rfl

theorem decode_xml_escape (line : Bytes) (plain : ∀ c ∈ line, isControl c = false) :
    decodeXml (latin (escape line)) = some (quote '&' nodeImage (latin line)) := by
  rw [decodeXml, if_pos (escape_well_formed line plain), (xml_line line).1]

theorem xml_value_letters (body : List Char) (c : Char) (known : xmlValue body = some c) : '&' ∉ body := by
  have digits : ∀ base (isDigit : Char → Bool) text, isDigit '&' = false → xmlNumber base isDigit text = some c →
    '&' ∉ text := by
    intro base isDigit text other number member
    rw [xmlNumber] at number
    split at number
    · rename_i all
      rw [List.all_eq_true.mp all.2.1 '&' member] at other
      cases other
    · cases number
  unfold xmlValue at known
  split at known
  · simpa using digits 16 isHexDigit _ (by decide) known
  · simpa using digits 10 Char.isDigit _ (by decide) known
  · obtain ⟨before, after, split, _⟩ := List.lookup_eq_some_iff.mp known
    have listed : ∀ entry ∈ xmlEntities, '&' ∉ entry.1 := by decide +kernel
    exact listed (body, c) (by rw [split]; simp)

theorem xml_span (text : List Char) (taken : Nat) (value : List Char) (found : xmlReference text = some
    (taken, value)) :
    taken ≤ text.length ∧ value.length ≤ taken ∧ '&' ∉ text.take taken := by
  rw [xmlReference] at found
  split at found
  · rename_i inside
    obtain ⟨c, known, same⟩ := Option.map_eq_some_iff.mp found
    obtain ⟨rfl, rfl⟩ := Prod.mk.inj same
    refine ⟨inside, by simp, ?_⟩
    have letters := xml_value_letters _ c known
    have whole : text.takeWhile (· ≠ ';') ++ text.dropWhile (· ≠ ';') = text := List.takeWhile_append_dropWhile
    have stop := List.head?_dropWhile_not (· ≠ ';') text
    generalize text.takeWhile (· ≠ ';') = body at whole letters inside ⊢
    generalize text.dropWhile (· ≠ ';') = tail at whole stop
    subst whole
    cases tail with
    | nil => simp at inside
    | cons d more =>
        have semicolon : d = ';' := by simpa using stop
        rw [List.take_append, List.take_of_length_le (by omega), Nat.add_sub_cancel_left, semicolon]
        simp [letters]
  · cases found

theorem references_absent (text : List Char) (defined : referencesDefined text = true) :
    opens '&' xmlReference text = false ↔ '&' ∉ text := by
  induction text with
  | nil => simp [opens]
  | cons c rest ih =>
      rw [referencesDefined, Bool.and_eq_true] at defined
      rw [opens, Bool.or_eq_false_iff, ih defined.2, List.mem_cons, not_or]
      refine and_congr_left fun _ => ?_
      by_cases marked : c = '&'
      · have known : (xmlReference rest).isSome = true := by simpa [marked] using defined.1
        simp [marked, known]
      · simp [marked, Ne.symm marked]

theorem decode_xml_same (text : List Char) : decodeXml text = some text ↔ wellFormed text = true ∧ '&' ∉ text := by
  rw [decodeXml]
  split
  · rename_i formed
    have defined : referencesDefined text = true := by
      rw [wellFormed, Bool.and_eq_true] at formed
      exact formed.2
    have same := @expand_quote_iff Char _ '&' xmlReference (fun _ => none) id xml_span
      (fun _ _ quoted => by cases quoted)
      (fun _ _ quoted => by cases quoted) text
    rw [quote_none text (fun _ _ => rfl), references_absent text defined] at same
    rw [Option.some_inj, same]
    simp [formed]
  · rename_i broken
    simp [broken]

theorem decode_xml_length (text node : List Char) (decoded : decodeXml text = some node) :
    node.length ≤ text.length ∧ (node.length = text.length → '&' ∉ text) := by
  rw [decodeXml] at decoded
  split at decoded
  · rename_i formed
    have defined : referencesDefined text = true := by
      rw [wellFormed, Bool.and_eq_true] at formed
      exact formed.2
    have bound := @expand_length Char _ '&' xmlReference
      (fun own taken value found => ⟨(xml_span own taken value found).1, (xml_span own taken value found).2.1⟩) text
    rw [← Option.some.inj decoded, ← references_absent text defined]
    exact bound
  · cases decoded

theorem decode_xml_nonempty (text node : List Char) (given : text ≠ []) (decoded : decodeXml text = some node) :
    node ≠ [] := by
  rw [decodeXml] at decoded
  split at decoded
  · rw [← Option.some.inj decoded]
    cases text with
    | nil => exact absurd rfl given
    | cons c rest =>
        by_cases marked : c = '&'
        · subst marked
          cases found : xmlReference rest with
          | none => simp [expand_mark rest found]
          | some entry =>
              obtain ⟨taken, value⟩ := entry
              rw [expand_reference rest value taken found]
              rw [xmlReference] at found
              split at found
              · obtain ⟨c, _, same⟩ := Option.map_eq_some_iff.mp found
                rw [← (Prod.mk.inj same).2]
                simp
              · cases found
        · simp [expand_letter c rest marked]
  · cases decoded

theorem node_no_markup (text : List Char) : '<' ∉ quote '&' nodeImage text := by
  intro member
  obtain ⟨c, _, inside⟩ := List.mem_flatMap.mp member
  unfold nodeImage at inside
  split at inside <;> grind

theorem longest_span (refs : NamedRefs) (text : List Char) (limit taken : Nat) (value : List Char)
    (within : limit ≤ text.length) (found : refs.longest text limit = some (taken, value)) :
    taken ≤ text.length ∧ value.length ≤ taken ∧ '&' ∉ text.take taken := by
  induction limit with
  | zero => cases found
  | succ limit ih =>
      rw [NamedRefs.longest] at found
      cases known : refs.lookup (text.take (limit + 1)) with
      | none =>
          rw [known] at found
          exact ih (by omega) found
      | some image =>
          rw [known] at found
          obtain ⟨rfl, rfl⟩ : limit + 1 = taken ∧ image = value := by simpa using found
          refine ⟨within, ?_, fun member => ?_⟩
          · exact (refs.short _ _ known).trans (List.length_take_le _ _)
          · have letter := refs.ends _ _ known _ member
            revert letter
            decide

theorem longest_closed (refs : NamedRefs) (name rest value : List Char)
    (known : refs.lookup (name ++ [';']) = some value) (limit : Nat) (enough : name.length < limit)
      (within : limit ≤ (name ++ ';' :: rest).length) :
    refs.longest (name ++ ';' :: rest) limit = some (name.length + 1, value) := by
  induction limit with
  | zero => omega
  | succ limit ih =>
      rw [NamedRefs.longest]
      by_cases atEnd : limit = name.length
      · have whole : (name ++ ';' :: rest).take (limit + 1) = name ++ [';'] := by
          rw [atEnd, List.append_cons, List.take_left' (by simp)]
        rw [whole, known, atEnd]
      · cases longer : refs.lookup ((name ++ ';' :: rest).take (limit + 1)) with
        | none => exact ih (by omega) (by omega)
        | some other =>
            have inside : ';' ∈ ((name ++ ';' :: rest).take (limit + 1)).dropLast := by
              have whole : (name ++ ';' :: rest).take (limit + 1) = name ++ [';'] ++
                rest.take (limit - name.length) := by
                rw [List.append_cons, List.take_append, List.take_of_length_le (by simp; omega)]
                simp
              have nonempty : rest.take (limit - name.length) ≠ [] := by
                rw [List.length_append, List.length_cons] at within
                rw [← List.length_pos_iff, List.length_take]
                omega
              rw [whole, List.dropLast_append_of_ne_nil nonempty]
              simp
            exact absurd (refs.letters _ _ longer _ inside) (by decide)

theorem numeric_word (rest : List Char) (opened base taken : Nat) (isDigit : Char → Bool) (value : List Char)
    (letters : isDigit '&' = false) (found : numericReference opened base isDigit rest = some (taken, value)) :
    ∃ word more, rest = word ++ more ∧ word ≠ [] ∧ '&' ∉ word ∧ taken = opened + word.length ∧ value.length = 1 := by
  rw [numericReference] at found
  have split := List.takeWhile_append_dropWhile (p := isDigit) (l := rest)
  have digits : '&' ∉ rest.takeWhile isDigit := fun member => by simp [List.mem_takeWhile_imp member] at letters
  by_cases empty : rest.takeWhile isDigit = []
  · rw [if_pos empty] at found
    cases found
  · rw [if_neg empty] at found
    obtain ⟨count, rfl⟩ := Prod.mk.inj (Option.some.inj found)
    by_cases closed : rest[(rest.takeWhile isDigit).length]? = some ';'
    · rw [if_pos closed] at count
      have behind : (rest.dropWhile isDigit).head? = some ';' := by
        have located := congrArg (fun text : List Char => text[(rest.takeWhile isDigit).length]?) split
        simp only [List.getElem?_append_right (le_refl _), Nat.sub_self] at located
        rw [List.head?_eq_getElem?, located, closed]
      obtain ⟨more, cons⟩ : ∃ more, rest.dropWhile isDigit = ';' :: more := List.head?_eq_some_iff.mp behind
      refine ⟨rest.takeWhile isDigit ++ [';'], more, ?_, by simp, by simpa using digits, ?_, rfl⟩
      · rw [← List.append_cons, ← cons, split]
      · rw [List.length_append, List.length_singleton, count]
    · rw [if_neg closed] at count
      exact ⟨_, _, split.symm, empty, digits, count.symm, rfl⟩

theorem numeric_span (opening rest : List Char) (base taken : Nat) (isDigit : Char → Bool) (value : List Char)
    (plain : '&' ∉ opening) (letters : isDigit '&' = false)
    (found : numericReference opening.length base isDigit rest = some (taken, value)) :
    taken ≤ (opening ++ rest).length ∧ value.length ≤ taken ∧ '&' ∉ (opening ++ rest).take taken := by
  obtain ⟨word, more, rfl, nonempty, absent, rfl, one⟩ := numeric_word rest _ base taken isDigit value letters found
  have positive := List.length_pos_of_ne_nil nonempty
  refine ⟨by simp, by omega, ?_⟩
  rw [← List.append_assoc, List.take_left' (List.length_append)]
  simp [plain, absent]

theorem html_span (refs : NamedRefs) (text : List Char) (taken : Nat) (value : List Char)
    (found : htmlReference refs text = some (taken, value)) :
    taken ≤ text.length ∧ value.length ≤ taken ∧ '&' ∉ text.take taken := by
  unfold htmlReference at found
  split at found
  · exact numeric_span ['#', 'x'] _ _ taken _ value (by decide) (by decide) found
  · exact numeric_span ['#', 'X'] _ _ taken _ value (by decide) (by decide) found
  · exact numeric_span ['#'] _ _ taken _ value (by decide) (by decide) found
  · exact longest_span refs _ _ taken value (le_refl _) found

theorem node_reads (refs : NamedRefs) (c : Char) (word : List Char) (quoted : nodeImage c = some word)
    (rest : List Char) :
    htmlReference refs (word ++ rest) = some (word.length, [if c = '<' then '>' else '<']) := by
  unfold nodeImage at quoted
  by_cases less : c = '<'
  · rw [if_pos less] at quoted
    obtain rfl := Option.some.inj quoted
    rw [if_pos less]
    exact longest_closed refs "gt".toList rest ['>'] refs.gt _ (by simp) (le_refl _)
  · rw [if_neg less] at quoted
    by_cases more : c = '>'
    · rw [if_pos more] at quoted
      obtain rfl := Option.some.inj quoted
      rw [if_neg less]
      exact longest_closed refs "lt".toList rest ['<'] refs.lt _ (by simp) (le_refl _)
    · rw [if_neg more] at quoted
      cases quoted

theorem node_wrong (c : Char) : (if c = '<' then '>' else '<') ≠ c := by
  by_cases less : c = '<'
  · rw [if_pos less, less]
    decide
  · rw [if_neg less]
    exact Ne.symm less

theorem log_text_survives_iff (refs : NamedRefs) (line : Bytes) (plain : ∀ c ∈ line, isControl c = false) :
    Survives refs line ↔
      (60 : UInt8) ∉ line ∧ (62 : UInt8) ∉ line ∧ opens '&' (htmlReference refs) (latin line) = false := by
  have shown : Survives refs line ↔ decodeHtml refs (quote '&' nodeImage (latin line)) = latin line := by
    rw [Survives, decode_xml_escape line plain]
    simp [node_no_markup]
  have brackets : (∀ c ∈ latin line, nodeImage c = none) ↔ (60 : UInt8) ∉ line ∧ (62 : UInt8) ∉ line := by
    constructor
    · intro bare
      have left : (60 : UInt8) ∉ line := fun member => absurd (bare _ ((latin_mem 60 line).mpr member)) (by decide)
      have right : (62 : UInt8) ∉ line := fun member => absurd (bare _ ((latin_mem 62 line).mpr member)) (by decide)
      exact ⟨left, right⟩
    · rintro ⟨left, right⟩ c member
      have less : c ≠ '<' := by
        rintro rfl
        exact left ((latin_mem 60 line).mp member)
      have more : c ≠ '>' := by
        rintro rfl
        exact right ((latin_mem 62 line).mp member)
      rw [nodeImage, if_neg less, if_neg more]
  rw [shown, decodeHtml, expand_quote_iff (html_span refs) (node_reads refs) (fun c _ _ => node_wrong c), brackets,
    and_assoc]

-- The part of the table that HTML shares with XML
def sharedNames : List (List Char × List Char) :=
  [(['a', 'm', 'p', ';'], ['&']), (['a', 'm', 'p'], ['&']), (['l', 't', ';'], ['<']), (['l', 't'], ['<']),
    (['g', 't', ';'], ['>']),
    (['g', 't'], ['>']), (['q', 'u', 'o', 't', ';'], ['"']), (['q', 'u', 'o', 't'], ['"']),
    (['a', 'p', 'o', 's', ';'], [Char.ofNat 39])]

theorem shared_mem (name value : List Char) (found : sharedNames.lookup name = some value) :
    (name, value) ∈ sharedNames := by
  obtain ⟨before, after, split, _⟩ := List.lookup_eq_some_iff.mp found
  rw [split]
  simp

def sharedRefs : NamedRefs where
  lookup := fun name => sharedNames.lookup name
  letters := by
    have every : (sharedNames.all fun entry => entry.1.dropLast.all Char.isAlphanum) = true := rfl
    intro name value found
    exact List.all_eq_true.mp (List.all_eq_true.mp every (name, value) (shared_mem name value found))
  ends := by
    have every : (sharedNames.all fun entry => entry.1.all fun c => c.isAlphanum || c == ';') = true := rfl
    intro name value found c member
    have letter := List.all_eq_true.mp (List.all_eq_true.mp every (name, value) (shared_mem name value found)) c member
    simpa using letter
  short := by
    have every : ∀ entry ∈ sharedNames, entry.2.length ≤ entry.1.length := by decide
    exact fun name value found => every (name, value) (shared_mem name value found)
  lt := rfl
  gt := rfl

theorem quoted_text_survives : Survives sharedRefs (ascii "AT&T said \"it's 5 & up\"") :=
  (log_text_survives_iff sharedRefs _ (by decide +kernel)).mpr (by decide +kernel)

theorem less_than_shown_greater :
    ¬ ∀ (refs : NamedRefs) (line : Bytes), (∀ c ∈ line, isControl c = false ∧ c ≠ 92) → Survives refs line := by
  intro survives
  obtain ⟨node, decoded, _, shown⟩ := survives sharedRefs (ascii "a<b") (by decide +kernel)
  rw [decode_xml_escape _ (by decide +kernel)] at decoded
  obtain rfl := Option.some.inj decoded
  exact absurd shown (by decide)

end Ftm50s.Syslog
