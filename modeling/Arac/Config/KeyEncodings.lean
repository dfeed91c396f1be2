/-
# Arac.Config.KeyEncodings -- three encodings of one key

A key is given as a PEM, as a PEM whose newlines are written `\n`, or as base64 of a
PEM, possibly broken into lines and with white space around it.  `normalizePem` tells
them apart by looking for the marker of a PEM.

* `marker_escaped`, `no_marker_in_base64`: an escaped PEM still shows the marker, and
  no base64 text does, since `-` is no digit.
* `unescape_escape`: unescaping restores the newlines.
* `normalizePem_encodings`: all three read as the same key.
* `loadKeys_of_encodings`: hence so do the keys of the service.

What is assumed of the runtime's base64 decoder is `Runtime.DecodesBase64`.
-/
import Arac.Theory.Base64
import Arac.Config.Configuration

namespace Arac.Config

open Arac.Theory Arac.Db

set_option autoImplicit false

/-- What marks a PEM. -/
def MARKER : String := "-----BEGIN"

theorem includes_iff {s part : String} : includes s part = true ↔ part.toList <:+: s.toList :=
  decide_eq_true_iff

/-! ## Escaped newlines -/

/-- Every newline written as a backslash and an `n`. -/
def escapeNewlines (l : List Char) : List Char :=
  l.flatMap fun c => if c = '\n' then ['\\', 'n'] else [c]

theorem unescape_cons {c : Char} (plain : c ≠ '\\') (l : List Char) :
    unescapeNewlines (c :: l) = c :: unescapeNewlines l := by
  rw [unescapeNewlines]
  rintro rest rfl
  exact absurd rfl plain

/-- A text without a backslash has nothing to unescape. -/
theorem unescape_of_plain {l : List Char} (plain : '\\' ∉ l) : unescapeNewlines l = l := by
  induction l with
  | nil => rfl
  | cons c l ih =>
      simp only [List.mem_cons, not_or] at plain
      rw [unescape_cons (Ne.symm plain.1), ih plain.2]

/-- Unescaping inverts escaping. -/
theorem unescape_escape {l : List Char} (plain : '\\' ∉ l) :
    unescapeNewlines (escapeNewlines l) = l := by
  induction l with
  | nil => rfl
  | cons c l ih =>
      simp only [List.mem_cons, not_or] at plain
      unfold escapeNewlines at ih ⊢
      rw [List.flatMap_cons]
      by_cases newline : c = '\n'
      · rw [if_pos newline, List.cons_append, List.cons_append, List.nil_append, unescapeNewlines,
          ih plain.2, newline]
      · rw [if_neg newline, List.cons_append, List.nil_append, unescape_cons (Ne.symm plain.1),
          ih plain.2]

theorem escape_append (l l' : List Char) :
    escapeNewlines (l ++ l') = escapeNewlines l ++ escapeNewlines l' := List.flatMap_append

/-- An escaped PEM still shows the marker. -/
theorem marker_escaped {l : List Char} (pem : MARKER.toList <:+: l) :
    MARKER.toList <:+: escapeNewlines l := by
  obtain ⟨before, after, rfl⟩ := pem
  have unchanged : escapeNewlines MARKER.toList = MARKER.toList := by decide
  refine ⟨escapeNewlines before, escapeNewlines after, ?_⟩
  rw [escape_append, escape_append, unchanged]

theorem newline_trimmed : isTrimmed '\n' = true := by decide

theorem unpadded_escaped {l : List Char} (unpadded : Unpadded l) : Unpadded (escapeNewlines l) := by
  have same : ∀ c, isTrimmed c = false → (if c = '\n' then ['\\', 'n'] else [c]) = [c] := by
    intro c kept
    refine if_neg fun newline => ?_
    rw [newline, newline_trimmed] at kept
    cases kept
  constructor
  · cases l with
    | nil => simp [escapeNewlines]
    | cons c l =>
        have kept := unpadded.1 c rfl
        rw [escapeNewlines, List.flatMap_cons, same c kept]
        rintro d first
        rw [← Option.some.inj first]
        exact kept
  · cases l using List.reverseRecOn with
    | nil => simp [escapeNewlines]
    | append_singleton l c =>
        have kept := unpadded.2 c (by simp)
        rw [escape_append, escapeNewlines, escapeNewlines, List.flatMap_cons, same c kept]
        intro d last
        simp only [List.flatMap_nil, List.append_nil, List.getLast?_append, List.getLast?_singleton,
          Option.some_or, Option.mem_some_iff] at last
        exact last ▸ kept

/-! ## Base64 -/

def Ascii (p : String) : Prop := ∀ c ∈ p.toList, c.val ≤ 127

/-- The bytes of a text in UTF-8. -/
def utf8 (p : String) : List UInt8 := p.toList.flatMap String.utf8EncodeChar

/-- The white space a base64 decoder skips. -/
def isBlank (c : Char) : Bool := c = ' ' || c = '\t' || c = '\n' || c = '\r'

/-- The text is base64 of `p`: the standard encoding, with blanks and line breaks in it
and white space around it. -/
def IsBase64Of (p s : String) : Prop :=
  ∃ lead body trail, s.toList = lead ++ body ++ trail ∧ (∀ c ∈ lead, isTrimmed c = true) ∧
    (∀ c ∈ trail, isTrimmed c = true) ∧
    body.filter (fun c => !isBlank c) = Base64.encode (utf8 p)

/-- `Buffer.from(s, 'base64').toString('utf8')` ignores blanks and line breaks, and reads
the standard encoding of a text back. -/
structure Runtime.DecodesBase64 (runtime : Runtime) : Prop where
  ignoresBlanks : ∀ l : List Char,
    runtime.fromBase64 (String.ofList (l.filter fun c => !isBlank c)) =
      runtime.fromBase64 (String.ofList l)
  invertsEncoding : ∀ p, Ascii p →
    runtime.fromBase64 (String.ofList (Base64.encode (utf8 p))) = p

theorem digit_kept : ∀ c, c ∈ Base64.alphabet ∨ c = '=' →
    isTrimmed c = false ∧ isBlank c = false ∧ c ≠ '-' := by
  have digits : (Base64.alphabet.all fun c => !isTrimmed c && !isBlank c && c != '-') = true := by
    decide
  rintro c (digit | rfl)
  · simpa [and_assoc] using List.all_eq_true.mp digits c digit
  · decide

theorem blank_trimmed {c : Char} (blank : isBlank c = true) : isTrimmed c = true := by
  simp only [isBlank, Bool.or_eq_true, decide_eq_true_eq] at blank
  rcases blank with ((rfl | rfl) | rfl) | rfl <;> decide

/-- A character of the body is a blank or belongs to the encoding. -/
theorem body_cases {body : List Char} {bs : List UInt8}
    (encoded : body.filter (fun c => !isBlank c) = Base64.encode bs) {c : Char} (member : c ∈ body) :
    isBlank c = true ∨ (isTrimmed c = false ∧ isBlank c = false ∧ c ≠ '-') := by
  cases blank : isBlank c with
  | true => exact Or.inl rfl
  | false =>
      have kept : c ∈ Base64.encode bs := by
        rw [← encoded]
        exact List.mem_filter.mpr ⟨member, by simp [blank]⟩
      have digit := digit_kept c (Base64.encode_mem bs c kept)
      rw [blank] at digit
      exact Or.inr digit

theorem utf8_ne_nil {p : String} (pem : MARKER.toList <:+: p.toList) : utf8 p ≠ [] := by
  intro empty
  obtain ⟨before, after, shape⟩ := pem
  have first : '-' ∈ p.toList := by
    rw [← shape]
    simp [MARKER]
  have nothing := List.flatMap_eq_nil_iff.mp empty '-' first
  exact absurd nothing (by decide)

/-- What is left of base64 of a PEM after trimming: the encoding, with blanks in it. -/
theorem trimmed_base64 {p s : String} (pem : MARKER.toList <:+: p.toList) (given : IsBase64Of p s) :
    (trimChars s.toList).filter (fun c => !isBlank c) = Base64.encode (utf8 p) ∧
      '-' ∉ trimChars s.toList := by
  obtain ⟨lead, body, trail, shape, before, after, encoded⟩ := given
  have untrimmed : ∃ c ∈ body, isTrimmed c = false := by
    obtain ⟨c, member⟩ := List.exists_mem_of_ne_nil _ (Base64.encode_ne_nil (utf8_ne_nil pem))
    have kept := (digit_kept c (Base64.encode_mem _ c member)).1
    rw [← encoded] at member
    exact ⟨c, (List.mem_filter.mp member).1, kept⟩
  rw [shape, trimChars_append before after untrimmed]
  constructor
  · -- within the body, blanks are the white space
    have same : ∀ c ∈ body, (!isBlank c) = !isTrimmed c := by
      intro c member
      rcases body_cases encoded member with blank | ⟨kept, filled, -⟩
      · rw [blank, blank_trimmed blank]
      · rw [kept, filled]
    rw [List.filter_congr fun c member => same c (mem_of_mem_trimChars member), filter_trimChars,
      ← List.filter_congr same, encoded]
  · intro dash
    rcases body_cases encoded (mem_of_mem_trimChars dash) with blank | ⟨-, -, other⟩
    · exact absurd blank (by decide)
    · exact other rfl

/-- No base64 text is mistaken for a raw PEM. -/
theorem no_marker_in_base64 {p s : String} (pem : MARKER.toList <:+: p.toList)
    (given : IsBase64Of p s) : ¬ MARKER.toList <:+: trimChars s.toList := by
  intro marked
  exact (trimmed_base64 pem given).2 (marked.subset (by simp [MARKER]))

/-! ## Reading a key -/

section

variable {runtime : Runtime} {p s : String}

theorem truthy_some {s : String} (present : s ≠ "") : truthy (some s) = some s :=
  Database.truthy_of_ne (by simpa using present)

/-- A text that is no white space at its ends, and shows the marker. -/
theorem normalizePem_of_marker {l : List Char} (unpadded : Unpadded l)
    (marked : MARKER.toList <:+: l) :
    normalizePem runtime (some (String.ofList l)) = String.ofList (unescapeNewlines l) := by
  have present : String.ofList l ≠ "" := by
    rintro empty
    have nothing : l = [] := by
      rw [← String.toList_ofList (l := l), empty]
      rfl
    rw [nothing] at marked
    exact absurd marked (by decide)
  have kept : trim (String.ofList l) = String.ofList l := by
    apply String.toList_injective
    rw [toList_trim, String.toList_ofList, trimChars_of_unpadded unpadded]
  have found : includes (String.ofList l) "-----BEGIN" = true := by
    rw [includes_iff, String.toList_ofList (l := l)]
    exact marked
  simp only [normalizePem, truthy_some present, kept, found, if_true, String.toList_ofList]

theorem normalizePem_of_base64 (decodes : runtime.DecodesBase64) (ascii : Ascii p)
    (pem : MARKER.toList <:+: p.toList) (given : IsBase64Of p s) :
    normalizePem runtime (some s) = p := by
  have marked : includes p "-----BEGIN" = true := includes_iff.mpr pem
  have present : s ≠ "" := by
    rintro rfl
    have encoded := (trimmed_base64 pem given).1
    exact Base64.encode_ne_nil (utf8_ne_nil pem) encoded.symm
  have unmarked : includes (trim s) "-----BEGIN" = false := by
    rw [Bool.eq_false_iff, Ne, includes_iff, toList_trim]
    exact no_marker_in_base64 pem given
  have decoded : runtime.fromBase64 (trim s) = p := by
    rw [← String.ofList_toList (s := trim s), ← decodes.ignoresBlanks, toList_trim,
      (trimmed_base64 pem given).1, decodes.invertsEncoding p ascii]
  simp only [normalizePem, truthy_some present, unmarked, decoded, marked, if_true,
    Bool.false_eq_true, if_false]

/-- A text reads as the key `p`. -/
inductive Encodes (p : String) : String → Prop where
  | raw : Encodes p p
  | escaped : Encodes p (String.ofList (escapeNewlines p.toList))
  | base64 {s : String} (given : IsBase64Of p s) : Encodes p s

/-- The texts that can be told apart: ASCII, with the marker of a PEM, without white
space at the ends and without a backslash. -/
structure IsPem (p : String) : Prop where
  ascii : Ascii p
  marked : includes p "-----BEGIN" = true
  unpadded : Unpadded p.toList
  plain : '\\' ∉ p.toList

theorem normalizePem_of_encodes (decodes : runtime.DecodesBase64) (pem : IsPem p)
    (given : Encodes p s) : normalizePem runtime (some s) = p := by
  have marked := includes_iff.mp pem.marked
  cases given with
  | raw =>
      have read : normalizePem runtime (some (String.ofList p.toList)) =
          String.ofList (unescapeNewlines p.toList) := normalizePem_of_marker pem.unpadded marked
      rw [unescape_of_plain pem.plain, String.ofList_toList] at read
      exact read
  | escaped =>
      rw [normalizePem_of_marker (unpadded_escaped pem.unpadded) (marker_escaped marked),
        unescape_escape pem.plain, String.ofList_toList]
  | base64 given => exact normalizePem_of_base64 decodes pem.ascii marked given

/-- The three encodings of a key read as that key. -/
theorem normalizePem_encodings (decodes : runtime.DecodesBase64) (ascii : Ascii p)
    (marked : includes p "-----BEGIN" = true) (unpadded : Unpadded p.toList)
    (plain : '\\' ∉ p.toList) :
    normalizePem runtime (some p) = p ∧
      normalizePem runtime (some (String.ofList (escapeNewlines p.toList))) = p ∧
      ∀ s, IsBase64Of p s → normalizePem runtime (some s) = p := by
  have pem : IsPem p := ⟨ascii, marked, unpadded, plain⟩
  exact ⟨normalizePem_of_encodes decodes pem .raw, normalizePem_of_encodes decodes pem .escaped,
    fun s given => normalizePem_of_encodes decodes pem (.base64 given)⟩

/-- A decoder that reads every byte as a character, which is what UTF-8 does to ASCII. -/
def asciiRuntime : Runtime where
  toLowerCase s := s
  fromBase64 s := String.ofList ((Base64.decode s.toList).map fun b => Char.ofNat b.toNat)
  jsonParse _ := none
  toNumber _ := none

theorem utf8_ascii {p : String} (ascii : Ascii p) :
    (utf8 p).map (fun b => Char.ofNat b.toNat) = p.toList := by
  unfold utf8 Ascii at *
  generalize p.toList = l at ascii ⊢
  induction l with
  | nil => rfl
  | cons c l ih =>
      have small : c.val.toNat ≤ 127 := UInt32.le_iff_toNat_le.mp (ascii c List.mem_cons_self)
      have single : String.utf8EncodeChar c = [UInt8.ofNat c.val.toNat] := by
        simp only [String.utf8EncodeChar, small, if_true]
      have back : (UInt8.ofNat c.val.toNat).toNat = c.toNat := by
        rw [UInt8.toNat_ofNat_of_lt' (by simp only [UInt8.size]; omega)]
        rfl
      rw [List.flatMap_cons, single, List.cons_append, List.nil_append, List.map_cons, back,
        Char.ofNat_toNat, ih fun d member => ascii d (List.mem_cons_of_mem _ member)]

theorem asciiRuntime_decodes : asciiRuntime.DecodesBase64 where
  ignoresBlanks l := by
    have digits : ∀ c ∈ Base64.alphabet, (!isBlank c) = true := by
      intro c digit
      rw [(digit_kept c (Or.inl digit)).2.1]
      rfl
    simp only [asciiRuntime, String.toList_ofList, Base64.decode_filter _ digits]
  invertsEncoding p ascii := by
    simp only [asciiRuntime, String.toList_ofList, Base64.decode_encode, utf8_ascii ascii,
      String.ofList_toList]

def sampleKeyText : String := "-----BEGIN KEY-----\nAA==\n-----END KEY-----"

theorem normalizePem_sampleKeyText :
    normalizePem asciiRuntime (some sampleKeyText) = sampleKeyText ∧
      normalizePem asciiRuntime (some "-----BEGIN KEY-----\\nAA==\\n-----END KEY-----") =
        sampleKeyText ∧
      normalizePem asciiRuntime
          (some " LS0tLS1CRUdJTiBLRVktLS0tLQpBQT09\nCi0tLS0tRU5EIEtFWS0tLS0t\n") = sampleKeyText := by
  have ascii : (sampleKeyText.toList.all fun c => c.val ≤ 127) = true := by decide +kernel
  obtain ⟨raw, escaped, base64⟩ := normalizePem_encodings (p := sampleKeyText) asciiRuntime_decodes
    (fun c member => of_decide_eq_true (List.all_eq_true.mp ascii c member)) (by decide +kernel)
    ⟨by rintro c ⟨⟩; rfl, by rintro c ⟨⟩; rfl⟩ (by decide +kernel)
  refine ⟨raw, ?_, base64 _ ?_⟩
  · have written : String.ofList (escapeNewlines sampleKeyText.toList) =
        "-----BEGIN KEY-----\\nAA==\\n-----END KEY-----" := by decide +kernel
    rw [written] at escaped
    exact escaped
  · exact ⟨[' '], "LS0tLS1CRUdJTiBLRVktLS0tLQpBQT09\nCi0tLS0tRU5EIEtFWS0tLS0t".toList, ['\n'],
      by decide +kernel, List.forall_mem_singleton.mpr (by decide),
      List.forall_mem_singleton.mpr (by decide), by decide +kernel⟩

/-- The keys of the service do not depend on how they are encoded. -/
theorem loadKeys_of_encodings {Private Public : Type} {library : KeyLibrary Private Public}
    {env : ProcessEnv} {q : String} (decodes : runtime.DecodesBase64) (privatePem : IsPem p)
    (publicPem : IsPem q) (privateGiven : ∃ s, env "JWT_PRIVATE_KEY" = some s ∧ Encodes p s)
    (publicGiven : ∃ s, env "JWT_PUBLIC_KEY" = some s ∧ Encodes q s) :
    loadKeys runtime library env = pure (p, q) := by
  have nonempty : ∀ {p : String}, IsPem p → p ≠ "" := by
    rintro p pem rfl
    exact absurd pem.marked (by decide)
  obtain ⟨s, privateKey, privateEncoded⟩ := privateGiven
  obtain ⟨r, publicKey, publicEncoded⟩ := publicGiven
  simp only [loadKeys, privateKey, publicKey, normalizePem_of_encodes decodes privatePem privateEncoded,
    normalizePem_of_encodes decodes publicPem publicEncoded, nonempty privatePem, nonempty publicPem,
    if_false]

end

end Arac.Config
