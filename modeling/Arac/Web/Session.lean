/-
# Arac.Web.Session -- a session, through the browser and back

The tokens of a session are written into `Set-Cookie` headers, copied on one of three ways to
the browser, kept there, joined into a `Cookie` header and read by the auth service, which
splits and decodes on its own.  `session_round_trip`: whichever way they came, and whatever
else the browser keeps, the auth service reads the very tokens it wrote, the access token on
every path and the refresh token below `/api/auth`, each until its lifetime is over and not
a moment longer.

It holds of tokens that are texts of letters, digits, `-`, `_` and `.`, as both kinds of
tokens are: no encoding on the way changes them.
-/
import Arac.Web.AuthController

namespace Arac.Web

open Arac.Theory Arac.Db Arac.Service Arac.Auth

set_option autoImplicit false

/-! ## Texts that no encoding changes -/

/-- The characters of base64url, and the dot that joins the parts of a JWT. -/
def tokenChars : List Char :=
  "ABCDEFGHIJKLMNOPQRSTUVWXYZabcdefghijklmnopqrstuvwxyz0123456789-_.".toList

structure TokenText (s : String) : Prop where
  nonempty : s ≠ ""
  chars : ∀ c ∈ s.toList, c ∈ tokenChars

instance (s : String) : Decidable (TokenText s) :=
  decidable_of_iff (s ≠ "" ∧ s.toList.all (· ∈ tokenChars) = true)
    ⟨fun h => ⟨h.1, by simpa using h.2⟩, fun h => ⟨h.1, by simpa using h.2⟩⟩

/-- Without white space there is nothing to trim. -/
theorem trim_of_untrimmed {s : String} (solid : ∀ c ∈ s.toList, isTrimmed c = false) : trim s = s := by
  have unpadded : Unpadded s.toList :=
    ⟨fun c first => solid c (List.mem_of_mem_head? first), fun c last => solid c (List.mem_of_mem_getLast? last)⟩
  apply String.toList_inj.mp
  rw [toList_trim, trimChars_of_unpadded unpadded]

namespace TokenText

variable {s : String}

theorem free (text : TokenText s) {c : Char} (other : c ∉ tokenChars) : c ∉ s.toList :=
  fun member => other (text.chars c member)

theorem trimmed (text : TokenText s) : trim s = s := by
  have solid : tokenChars.all (fun c => !isTrimmed c) = true := by decide
  refine trim_of_untrimmed fun c member => ?_
  simpa using List.all_eq_true.mp solid c (text.chars c member)

theorem decoded (text : TokenText s) : decodeURIComponent s = some s :=
  decodeURIComponent_of_plain (text.free (by decide))

end TokenText

/-- A number in decimal digits. -/
theorem TokenText.digits (n : Nat) : TokenText (toString n) := by
  have chars : (toString n).toList = Nat.toDigits 10 n := by
    rw [Nat.toString_eq_ofList_toDigits, String.toList_ofList]
  refine ⟨fun empty => ?_, fun c member => ?_⟩
  · rw [empty] at chars
    exact Nat.toDigits_ne_nil chars.symm
  · rw [chars] at member
    have digit := Nat.isDigit_of_mem_toDigits (by decide) (by decide) member
    simp only [Char.isDigit, Bool.and_eq_true, decide_eq_true_eq, UInt32.le_iff_toNat_le, ge_iff_le] at digit
    obtain ⟨low, high⟩ : 48 ≤ c.toNat ∧ c.toNat ≤ 57 := digit
    have known : ∀ k : Fin 58, 48 ≤ k.val → Char.ofNat k.val ∈ tokenChars := by decide
    have found := known ⟨c.toNat, Nat.lt_succ_of_le high⟩ low
    rwa [Char.ofNat_toNat] at found

/-! ## What a header carries -/

/-- How the library writes a cookie whose value is the text of a token: the value as it is,
the path, and the lifetime in seconds. -/
def WritesTokens (serialize : String → String → CookieOptions → String) : Prop :=
  ∀ name value (options : CookieOptions), '=' ∉ name.toList → ';' ∉ name.toList →
    ';' ∉ options.path.toList → TokenText value →
    ∃ attrs, serialize name value options = renderHeader name value attrs ∧
      (∀ attr ∈ attrs, attr.1 ∈ attributeNames ∧ ∀ v ∈ attr.2, ';' ∉ v.toList) ∧
      (("Path", some options.path) ∈ attrs ∧ ∀ v, ("Path", v) ∈ attrs → v = some options.path) ∧
      (("Max-Age", some (toString (options.maxAge / 1000))) ∈ attrs ∧
        ∀ v, ("Max-Age", v) ∈ attrs → v = some (toString (options.maxAge / 1000)))

/-- Where all the steps that write a part of the state write the same, that is what is there. -/
theorem foldl_writes {α S V : Type} {f : S → α → S} {p : S → V} {w : α → Prop} {v : V}
    {l : List α} (same : ∀ s, ∀ a ∈ l, w a → p (f s a) = v)
    (keeps : ∀ s a, ¬ w a → p (f s a) = p s) {s : S}
    (some : (∃ a ∈ l, w a) ∨ p s = v) : p (l.foldl f s) = v := by
  induction l generalizing s with
  | nil =>
      rcases some with ⟨a, none_in, -⟩ | done
      · cases none_in
      · exact done
  | cons a l ih =>
      apply ih (fun s a member => same s a (List.mem_cons_of_mem _ member))
      by_cases here : w a
      · exact Or.inr (same s a List.mem_cons_self here)
      · rcases some with ⟨b, member, later⟩ | done
        · rcases List.mem_cons.mp member with rfl | member
          · exact absurd later here
          · exact Or.inl ⟨b, member, later⟩
        · exact Or.inr ((keeps s a here).trans done)

/-- A reading of attributes that tells the lifetime from the other names of the list. -/
structure ReadsAge (read : String → String × Option String) (age : String) : Prop where
  age : read (renderAttribute ("Max-Age", some age)) = ("max-age", some age)
  names : ∀ attr, attr.1 ∈ attributeNames → (read (renderAttribute attr)).1 = "max-age" →
    attr.1 = "Max-Age"

theorem maxAge_lower : ∀ k ∈ attributeNames, '=' ∉ (" " ++ k).toList ∧
    (lower (trim (" " ++ k)) = "max-age" → k = "Max-Age") := by decide

theorem readsAge_readAttribute {age : String} (text : TokenText age) : ReadsAge readAttribute age where
  age := by
    have here : split '=' (renderAttribute ("Max-Age", some age)) = [" Max-Age", age] := by
      have first : '=' ∉ (" " ++ "Max-Age").toList := by decide
      rw [renderAttribute, split_append first, split_of_not_mem (text.free (by decide))]
      rfl
    have key : lower (trim " Max-Age") = "max-age" := by decide
    simp [readAttribute, here, key, text.trimmed]
  names attr known is_age := by
    obtain ⟨plain, only⟩ := maxAge_lower attr.1 known
    apply only
    rcases attr with ⟨k, _ | v⟩
    · simpa [readAttribute, renderAttribute, split_of_not_mem plain] using is_age
    · simpa [readAttribute, renderAttribute, split_append plain] using is_age

/-- The part before the first `=`. -/
theorem takeWhile_renderAttribute {attr : String × Option String} (plain : '=' ∉ (" " ++ attr.1).toList) :
    (renderAttribute attr).toList.takeWhile (· ≠ '=') = (" " ++ attr.1).toList := by
  rcases attr with ⟨k, _ | v⟩
  · apply List.takeWhile_eq_self_iff.mpr
    intro c member
    simp only [decide_eq_true_eq]
    rintro rfl
    exact plain member
  · have chars : (renderAttribute (k, some v)).toList = (" " ++ k).toList ++ '=' :: v.toList := by
      simp [renderAttribute]
    rw [chars, (takeWhile_append_eq plain).1]

theorem readsAge_browserAttribute {age : String} (text : TokenText age) :
    ReadsAge browserAttribute age where
  age := by
    have chars : (renderAttribute ("Max-Age", some age)).toList = " Max-Age".toList ++ '=' :: age.toList := by
      simp [renderAttribute]
    have first : '=' ∉ " Max-Age".toList := by decide
    have key : lower (trim " Max-Age") = "max-age" := by decide
    simp only [browserAttribute, chars, takeWhile_append_eq first, String.ofList_toList, key,
      List.tail_cons, text.trimmed]
  names attr known is_age := by
    obtain ⟨plain, only⟩ := maxAge_lower attr.1 known
    apply only
    simpa only [browserAttribute, takeWhile_renderAttribute plain, String.ofList_toList] using is_age

section

variable {number : Option String → Option Int} {name path value age : String}
  {attrs : List (String × Option String)} {read : String → String × Option String} {P : Type}

variable (number) in
/-- Path and lifetime, as every parser reads them. -/
theorem readAttributes_rendered (known : ∀ attr ∈ attrs, attr.1 ∈ attributeNames)
    (paths : ("Path", some path) ∈ attrs ∧ ∀ v, ("Path", v) ∈ attrs → v = some path)
    (ages : ("Max-Age", some age) ∈ attrs ∧ ∀ v, ("Max-Age", v) ∈ attrs → v = some age)
    (readsPath : ReadsPath read path) (readsAge : ReadsAge read age) (onPath : Option String → P)
    (start : P) :
    readAttributes onPath number ((attrs.map renderAttribute).map read) start =
      (onPath (some path), number (some age)) := by
  apply Prod.ext
  · refine readAttributes_path onPath number ?_ ?_ start
    · intro attr member is_path
      obtain ⟨_, rendered, rfl⟩ := List.mem_map.mp member
      obtain ⟨⟨k, v⟩, attr_in, rfl⟩ := List.mem_map.mp rendered
      obtain rfl : k = "Path" := readsPath.names _ (known _ attr_in) is_path
      obtain rfl := paths.2 v attr_in
      rw [readsPath.path]
    · exact ⟨_, List.mem_map_of_mem (List.mem_map_of_mem paths.1), by rw [readsPath.path]⟩
  · refine foldl_writes (p := Prod.snd) (w := fun attr => attr.1 = "max-age") ?_ ?_
      (Or.inl ⟨_, List.mem_map_of_mem (List.mem_map_of_mem ages.1), by rw [readsAge.age]⟩)
    · intro s attr member is_age
      obtain ⟨_, rendered, rfl⟩ := List.mem_map.mp member
      obtain ⟨⟨k, v⟩, attr_in, rfl⟩ := List.mem_map.mp rendered
      obtain rfl : k = "Max-Age" := readsAge.names _ (known _ attr_in) is_age
      obtain rfl := ages.2 v attr_in
      rw [readsAge.age]
      simp
    · intro s attr other
      rw [if_neg other]
      split <;> rfl

/-- Name and value of a header, as every parser reads them. -/
theorem readHeader_rendered (plain : '=' ∉ name.toList) (clean : ';' ∉ name.toList)
    (named : trim name = name) (text : TokenText value)
    (known : ∀ attr ∈ attrs, attr.1 ∈ attributeNames ∧ ∀ v ∈ attr.2, ';' ∉ v.toList) :
    readHeader (renderHeader name value attrs) = some ⟨name, value, attrs.map renderAttribute⟩ := by
  have parts : split ';' (renderHeader name value attrs) =
      (name ++ "=" ++ value) :: attrs.map renderAttribute := by
    apply split_join (by simp)
    intro part member
    rcases List.mem_cons.mp member with rfl | member
    · simp [clean, text.free (c := ';') (by decide)]
    · obtain ⟨⟨k, v⟩, attr_in, rfl⟩ := List.mem_map.mp member
      obtain ⟨in_names, v_clean⟩ := known _ attr_in
      have k_clean : ∀ k ∈ attributeNames, ';' ∉ (" " ++ k).toList := by decide
      have k_clean := k_clean k in_names
      cases v with
      | none => exact k_clean
      | some v =>
          simp only [renderAttribute, String.toList_append, List.mem_append, not_or] at k_clean ⊢
          exact ⟨⟨k_clean, by decide⟩, v_clean v rfl⟩
  have chars : (name ++ "=" ++ value).toList = name.toList ++ '=' :: value.toList := by simp
  simp only [readHeader, parts, chars, takeWhile_append_eq plain]
  simp [named, text.trimmed]

/-- Whoever copies the header, the cookie is the one that the auth service wrote. -/
theorem received_token {serialize : String → String → CookieOptions → String}
    (format : WritesTokens serialize) (numeric : ∀ n : Nat, number (some (toString n)) = some (n : Int))
    (options : CookieOptions) (plain : '=' ∉ name.toList) (clean : ';' ∉ name.toList)
    (named : trim name = name) (name_nonempty : name ≠ "") (text : TokenText value)
    (path_clean : ';' ∉ options.path.toList) (path_plain : '=' ∉ options.path.toList)
    (trimmed : trim options.path = options.path) (nonempty : options.path ≠ "") (d : Delivery) :
    received number [serialize name value options] d =
      [⟨name, value, options.path, some (options.maxAge / 1000 : Nat)⟩] := by
  obtain ⟨attrs, same, known, paths, ages⟩ := format name value options plain clean path_clean text
  have header := readHeader_rendered plain clean named text known
  have names : ∀ attr ∈ attrs, attr.1 ∈ attributeNames := fun attr member => (known attr member).1
  have digits := TokenText.digits (options.maxAge / 1000)
  rw [same]
  cases d with
  | serverAction =>
      have read := readAttributes_rendered number names paths ages
        (readsPath_readAttribute path_plain trimmed) (readsAge_readAttribute digits) id none
      simp only [received, applyUpstreamCookies, parseSetCookie, header, List.filterMap_cons,
        List.filterMap_nil, Option.bind_eq_bind, Option.bind_some, Option.pure_def, Option.map_some, read,
        numeric]
      rfl
  | proxy =>
      have read := readAttributes_rendered number names paths ages
        (readsPath_browserAttribute trimmed) (readsAge_browserAttribute digits) (·.getD "") ""
      simp only [received, browserParse, header, List.filterMap_cons, List.filterMap_nil,
        Option.bind_eq_bind, Option.bind_some, name_nonempty, if_false, Option.pure_def, read, numeric]
      rfl
  | middleware =>
      have read := readAttributes_rendered number names paths ages
        (readsPath_readAttribute path_plain trimmed) (readsAge_readAttribute digits) pathOrRoot "/"
      have kept : pathOrRoot (some options.path) = options.path := by
        simp [pathOrRoot, Option.filter, nonempty]
      simp only [received, applySetCookies, header, List.filterMap_cons, List.filterMap_nil,
        Option.bind_eq_bind, Option.bind_some, Option.pure_def, read, numeric, kept]

end

/-! ## The `Cookie` header -/

/-- How a browser joins the cookies of a request; without any there is no header. -/
def cookieHeader : List (String × String) → Option String
  | [] => none
  | first :: rest =>
      some (join ';' ((first.1 ++ "=" ++ first.2) :: rest.map fun c => " " ++ c.1 ++ "=" ++ c.2))

structure CleanName (name : String) : Prop where
  plain : '=' ∉ name.toList
  clean : ';' ∉ name.toList
  trimmed : trim name = name

/-- A part of the header, after it was split. -/
structure IsPart (part : String) (c : String × String) : Prop where
  paired : '=' ∈ part.toList
  name : trim (String.ofList (part.toList.takeWhile (· ≠ '='))) = c.1
  value : String.ofList (part.toList.dropWhile (· ≠ '=')).tail = c.2

theorem isPart_first {c : String × String} (named : CleanName c.1) : IsPart (c.1 ++ "=" ++ c.2) c := by
  have chars : (c.1 ++ "=" ++ c.2).toList = c.1.toList ++ '=' :: c.2.toList := by simp
  refine ⟨by simp, ?_, ?_⟩
  · rw [chars, (takeWhile_append_eq named.plain).1, String.ofList_toList, named.trimmed]
  · rw [chars, (takeWhile_append_eq named.plain).2, List.tail_cons, String.ofList_toList]

/-- The blank before a later part is trimmed. -/
theorem isPart_later {c : String × String} (named : CleanName c.1) :
    IsPart (" " ++ c.1 ++ "=" ++ c.2) c := by
  have chars : (" " ++ c.1 ++ "=" ++ c.2).toList = (' ' :: c.1.toList) ++ '=' :: c.2.toList := by simp
  have plain : '=' ∉ ' ' :: c.1.toList := by
    intro member
    rcases List.mem_cons.mp member with impossible | member
    · cases impossible
    · exact named.plain member
  have blank : isTrimmed ' ' = true := by decide
  refine ⟨by simp, ?_, ?_⟩
  · rw [chars, (takeWhile_append_eq plain).1]
    apply String.toList_inj.mp
    rw [toList_trim, String.toList_ofList, trimChars, List.dropWhile_cons_of_pos blank, ← trimChars,
      ← toList_trim, named.trimmed]
  · rw [chars, (takeWhile_append_eq plain).2, List.tail_cons, String.ofList_toList]

/-- The first part of the name is decoded; the others are skipped. -/
theorem readParts_cookies {name : String} {parts : List String} {cookies : List (String × String)}
    (each : List.Forall₂ IsPart parts cookies) (texts : ∀ c ∈ cookies, c.1 = name → TokenText c.2) :
    AuthController.readParts name parts = .ok ((cookies.find? (·.1 = name)).map Prod.snd) := by
  induction each with
  | nil => rfl
  | @cons part c parts cookies isPart _ ih =>
      rw [AuthController.readParts, if_pos isPart.paired, isPart.name, isPart.value]
      by_cases mine : c.1 = name
      · have text := texts c List.mem_cons_self mine
        rw [if_pos mine, text.trimmed, text.decoded, List.find?_cons_of_pos (by simpa using mine)]
        rfl
      · rw [if_neg mine, List.find?_cons_of_neg (by simpa using mine)]
        exact ih fun c member => texts c (List.mem_cons_of_mem _ member)

/-- What the auth service reads of a header that a browser has joined. -/
theorem readCookie_cookieHeader {name : String} {cookies : List (String × String)}
    (names : ∀ c ∈ cookies, CleanName c.1) (values : ∀ c ∈ cookies, ';' ∉ c.2.toList)
    (texts : ∀ c ∈ cookies, c.1 = name → TokenText c.2) :
    AuthController.readCookie (cookieHeader cookies) name =
      .ok ((cookies.find? (·.1 = name)).map Prod.snd) := by
  cases cookies with
  | nil => rfl
  | cons first rest =>
      obtain ⟨first_name, rest_names⟩ := List.forall_mem_cons.mp names
      have parts : split ';' (join ';' ((first.1 ++ "=" ++ first.2) ::
          rest.map fun c => " " ++ c.1 ++ "=" ++ c.2)) =
            (first.1 ++ "=" ++ first.2) :: rest.map fun c => " " ++ c.1 ++ "=" ++ c.2 := by
        apply split_join (by simp)
        intro part member
        rcases List.mem_cons.mp member with rfl | member
        · simp [first_name.clean, values first List.mem_cons_self]
        · obtain ⟨c, c_in, rfl⟩ := List.mem_map.mp member
          simp [(rest_names c c_in).clean, values c (List.mem_cons_of_mem _ c_in)]
      have nonempty : join ';' ((first.1 ++ "=" ++ first.2) ::
          rest.map fun c => " " ++ c.1 ++ "=" ++ c.2) ≠ "" := by
        intro empty
        rw [empty] at parts
        have paired : '=' ∈ (first.1 ++ "=" ++ first.2).toList := by simp
        rw [← (List.cons.inj parts).1] at paired
        cases paired
      have present : truthy (cookieHeader (first :: rest)) = cookieHeader (first :: rest) := by
        simp [truthy, cookieHeader, Option.filter, nonempty]
      have each : List.Forall₂ IsPart ((first.1 ++ "=" ++ first.2) ::
          rest.map fun c => " " ++ c.1 ++ "=" ++ c.2) (first :: rest) := by
        refine .cons (isPart_first first_name) ?_
        rw [List.forall₂_map_left_iff, List.forall₂_same]
        exact fun c member => isPart_later (rest_names c member)
      rw [AuthController.readCookie, present, cookieHeader]
      show AuthController.readParts name (split ';' _) = _
      rw [parts]
      exact readParts_cookies each texts

/-! ## The round trip -/

/-- Another cookie of the site.  It has a name: one without is sent as its value alone. -/
structure OtherCookie (c : StoredCookie) : Prop where
  named : c.name ≠ ""
  name : CleanName c.name
  value : ';' ∉ c.value.toList
  access : c.name ≠ ACCESS_COOKIE
  refresh : c.name ≠ REFRESH_COOKIE

/-- A cookie of `setAuthCookies`, as a browser keeps it. -/
def kept (name value path : String) (issued arrived expiresAt : Nat) : StoredCookie :=
  { name, value, path, expires := some (arrived + (maxAge issued expiresAt / 1000 : Nat) * 1000) }

theorem live_kept {name value path : String} {issued arrived expiresAt now : Nat} :
    (kept name value path issued arrived expiresAt).Live now ↔
      now < arrived + maxAge issued expiresAt / 1000 * 1000 := by
  unfold StoredCookie.Live kept
  simp only [Option.mem_some_iff, forall_eq']
  omega

/-- The one cookie of a name, where it is sent. -/
theorem find_cookiesFor (now : Nat) (path : String) {jar : List StoredCookie} {c : StoredCookie}
    (member : c ∈ jar) (only : ∀ c' ∈ jar, c'.name = c.name → c' = c) :
    ((cookiesFor now path jar).find? (·.1 = c.name)).map Prod.snd =
      if c.Live now ∧ pathMatch path c.path = true then some c.value else none := by
  have sent_iff : ∀ pair, pair ∈ cookiesFor now path jar ↔ ∃ c' ∈ jar,
      (c'.Live now ∧ pathMatch path c'.path = true) ∧ (c'.name, c'.value) = pair := by
    intro pair
    simp only [cookiesFor, List.mem_map, List.mem_filter, decide_eq_true_eq, and_assoc]
  cases found : (cookiesFor now path jar).find? (·.1 = c.name) with
  | none =>
      rw [if_neg]
      · rfl
      · intro sends
        have absent := List.find?_eq_none.mp found (c.name, c.value)
          ((sent_iff _).mpr ⟨c, member, sends, rfl⟩)
        exact absent (by simp)
  | some pair =>
      obtain ⟨c', c'_in, sends, rfl⟩ := (sent_iff pair).mp (List.mem_of_find?_eq_some found)
      have named := List.find?_some found
      obtain rfl := only c' c'_in (of_decide_eq_true named)
      rw [if_pos sends]
      rfl

section

variable {serialize : String → String → CookieOptions → String} {config : CookieConfig}
  {number : Option String → Option Int} {result : AuthResult} {others : List StoredCookie}

/-- The cookies that a browser keeps of a session, whatever way they came. -/
theorem stored_session (format : WritesTokens serialize)
    (numeric : ∀ n : Nat, number (some (toString n)) = some (n : Int)) (access : TokenText result.accessToken)
    (refresh : TokenText result.refreshToken) (d : Delivery) (requestPath : String)
    (issued arrived : Nat) :
    (received number (setAuthCookies serialize config issued result) d).map
        (ResponseCookie.store arrived requestPath) =
      [kept ACCESS_COOKIE result.accessToken "/" issued arrived result.accessExpiresAt,
        kept REFRESH_COOKIE result.refreshToken REFRESH_PATH issued arrived result.refreshExpiresAt] := by
  have first := received_token format numeric
    (config.options "/" (maxAge issued result.accessExpiresAt))
    (show '=' ∉ ACCESS_COOKIE.toList by decide) (by decide) (by decide) (by decide) access (show ';' ∉ "/".toList by decide)
    (show '=' ∉ "/".toList by decide) (show trim "/" = "/" by decide) (show "/" ≠ "" by decide) d
  have second := received_token format numeric
    (config.options REFRESH_PATH (maxAge issued result.refreshExpiresAt))
    (show '=' ∉ REFRESH_COOKIE.toList by decide) (by decide) (by decide) (by decide) refresh
    (show ';' ∉ REFRESH_PATH.toList by decide) (show '=' ∉ REFRESH_PATH.toList by decide)
    (show trim REFRESH_PATH = REFRESH_PATH by decide) (show REFRESH_PATH ≠ "" by decide) d
  have apart : ∀ a b : String,
      received number [a, b] d = received number [a] d ++ received number [b] d := by
    intro a b
    show received number ([a] ++ [b]) d = _
    cases d with
    | serverAction => exact List.filterMap_append
    | proxy => exact List.filterMap_append
    | middleware => exact List.filterMap_append
  rw [setAuthCookies, apart, first, second]
  have root : "/".toList.head? = some '/' := by decide
  have rooted : REFRESH_PATH.toList.head? = some '/' := by decide
  show [ResponseCookie.store arrived requestPath _, ResponseCookie.store arrived requestPath _] = _
  simp only [ResponseCookie.store, CookieConfig.options, Option.map_some, root, rooted, if_true, kept]

/-- Whatever way the cookies of a session came to the browser, and whatever else it keeps: on
every path the auth service reads the access token that it wrote, until its lifetime is over,
and below `/api/auth` the refresh token. -/
theorem session_round_trip (format : WritesTokens serialize)
    (numeric : ∀ n : Nat, number (some (toString n)) = some (n : Int)) (access : TokenText result.accessToken)
    (refresh : TokenText result.refreshToken) (foreign : ∀ c ∈ others, OtherCookie c) (d : Delivery)
    (requestPath : String) (issued arrived now : Nat) {path : String}
    (rooted : path.toList.head? = some '/') :
    let jar := others ++ (received number (setAuthCookies serialize config issued result) d).map
      (ResponseCookie.store arrived requestPath)
    let header := cookieHeader (cookiesFor now path jar)
    AuthController.readCookie header ACCESS_COOKIE =
        .ok (if now < arrived + maxAge issued result.accessExpiresAt / 1000 * 1000 then
          some result.accessToken else none) ∧
      AuthController.readCookie header REFRESH_COOKIE =
        .ok (if now < arrived + maxAge issued result.refreshExpiresAt / 1000 * 1000 ∧
            pathMatch path REFRESH_PATH = true then
          some result.refreshToken else none) := by
  intro jar header
  have contents : ∀ c, c ∈ jar ↔ c ∈ others ∨
      c = kept ACCESS_COOKIE result.accessToken "/" issued arrived result.accessExpiresAt ∨
      c = kept REFRESH_COOKIE result.refreshToken REFRESH_PATH issued arrived result.refreshExpiresAt := by
    intro c
    simp only [jar, stored_session format numeric access refresh, List.mem_append, List.mem_cons,
      List.not_mem_nil, or_false]
  have sent : ∀ pair ∈ cookiesFor now path jar, ∃ c ∈ jar, (c.name, c.value) = pair := by
    intro pair member
    obtain ⟨c, c_in, rfl⟩ := List.mem_map.mp member
    exact ⟨c, (List.mem_filter.mp c_in).1, rfl⟩
  have names : ∀ pair ∈ cookiesFor now path jar, CleanName pair.1 := by
    intro pair member
    obtain ⟨c, c_in, rfl⟩ := sent pair member
    rcases (contents c).mp c_in with other | rfl | rfl
    · exact (foreign c other).name
    · exact (⟨by decide, by decide, by decide⟩ : CleanName ACCESS_COOKIE)
    · exact (⟨by decide, by decide, by decide⟩ : CleanName REFRESH_COOKIE)
  have values : ∀ pair ∈ cookiesFor now path jar, ';' ∉ pair.2.toList := by
    intro pair member
    obtain ⟨c, c_in, rfl⟩ := sent pair member
    rcases (contents c).mp c_in with other | rfl | rfl
    · exact (foreign c other).value
    · exact access.free (by decide)
    · exact refresh.free (by decide)
  have texts : ∀ name, name = ACCESS_COOKIE ∨ name = REFRESH_COOKIE →
      ∀ pair ∈ cookiesFor now path jar, pair.1 = name → TokenText pair.2 := by
    rintro name ours pair member rfl
    obtain ⟨c, c_in, rfl⟩ := sent pair member
    rcases (contents c).mp c_in with other | rfl | rfl
    · rcases ours with mine | mine
      · exact absurd mine (foreign c other).access
      · exact absurd mine (foreign c other).refresh
    · exact access
    · exact refresh
  have everywhere : pathMatch path "/" = true := by
    cases chars : path.toList with
    | nil =>
        rw [chars] at rooted
        cases rooted
    | cons first rest =>
        rw [chars] at rooted
        obtain rfl := Option.some.inj rooted
        simp [pathMatch, chars]
  constructor
  · rw [readCookie_cookieHeader names values (texts _ (Or.inl rfl))]
    have only : ∀ c' ∈ jar, c'.name = ACCESS_COOKIE →
        c' = kept ACCESS_COOKIE result.accessToken "/" issued arrived result.accessExpiresAt := by
      intro c' c'_in named
      rcases (contents c').mp c'_in with other | rfl | rfl
      · exact absurd named (foreign c' other).access
      · rfl
      · exact absurd (show REFRESH_COOKIE = ACCESS_COOKIE from named) (by decide)
    have sends : (kept ACCESS_COOKIE result.accessToken "/" issued arrived
        result.accessExpiresAt).Live now ∧ pathMatch path "/" = true ↔
          now < arrived + maxAge issued result.accessExpiresAt / 1000 * 1000 := by
      rw [live_kept, everywhere]
      simp
    have found := find_cookiesFor now path ((contents _).mpr (Or.inr (Or.inl rfl))) only
    exact congrArg Except.ok (found.trans (if_congr sends rfl rfl))
  · rw [readCookie_cookieHeader names values (texts _ (Or.inr rfl))]
    have only : ∀ c' ∈ jar, c'.name = REFRESH_COOKIE →
        c' = kept REFRESH_COOKIE result.refreshToken REFRESH_PATH issued arrived
          result.refreshExpiresAt := by
      intro c' c'_in named
      rcases (contents c').mp c'_in with other | rfl | rfl
      · exact absurd named (foreign c' other).refresh
      · exact absurd (show ACCESS_COOKIE = REFRESH_COOKIE from named) (by decide)
      · rfl
    have found := find_cookiesFor now path ((contents _).mpr (Or.inr (Or.inr rfl))) only
    exact congrArg Except.ok (found.trans (if_congr (and_congr live_kept .rfl) rfl rfl))

end

/-! ## A session of fifteen minutes -/

theorem clean_of_free {s : String} (free : ';' ∉ s.toList) : clean s = s := by
  have all : ∀ c ∈ s.toList, decide (c ≠ ';') = true := by
    intro c member
    simp only [decide_eq_true_eq]
    rintro rfl
    exact free member
  rw [clean, List.filter_eq_self.mpr all, String.ofList_toList]

theorem sampleSerialize_writesTokens : WritesTokens sampleSerialize := by
  intro name value options _ _ path text
  refine ⟨_, by rw [sampleSerialize, clean_of_free (text.free (by decide))], ?_, by simp, ?_⟩
  · intro attr member
    simp only [List.mem_cons, List.not_mem_nil, or_false] at member
    rcases member with rfl | rfl | rfl
    · exact ⟨by simp [attributeNames], fun v here => by cases here; exact clean_semi _⟩
    · exact ⟨by simp [attributeNames], fun v here => by cases here; exact path⟩
    · exact ⟨by simp [attributeNames], fun v here => by cases here⟩
  · have digits : clean (toString (options.maxAge / 1000)) = toString (options.maxAge / 1000) :=
      clean_of_free ((TokenText.digits _).free (by decide))
    rw [digits]
    simp

def decimal (text : Option String) : Option Int :=
  text.map fun s => (Nat.ofDigitChars 10 s.toList 0 : Int)

def sampleSession : AuthResult :=
  { loggedIn with accessToken := "eyJhbGciOi.eyJzdWIi.c2ln", refreshToken := "dG9rZW4_MQ-1" }

/-- The session next to a cookie of the pages, as the server action has set it. -/
def sampleJar : List StoredCookie :=
  [⟨"theme", "dark", "/", none⟩] ++
    (received decimal (setAuthCookies sampleSerialize sampleConfig 0 sampleSession) .serverAction).map
      (ResponseCookie.store 0 "/login")

theorem session_round_trip_sampleSession :
    AuthController.readCookie (cookieHeader (cookiesFor 899999 "/api/auth/users" sampleJar))
        ACCESS_COOKIE = .ok (some "eyJhbGciOi.eyJzdWIi.c2ln") ∧
      AuthController.readCookie (cookieHeader (cookiesFor 899999 "/api/auth/users" sampleJar))
        REFRESH_COOKIE = .ok (some "dG9rZW4_MQ-1") := by
  have numeric : ∀ n : Nat, decimal (some (toString n)) = some (n : Int) := by
    intro n
    rw [decimal, Option.map_some, Nat.toString_eq_ofList_toDigits, String.toList_ofList,
      Nat.ofDigitChars_toDigits (by decide) (by decide)]
  have foreign : ∀ c ∈ [(⟨"theme", "dark", "/", none⟩ : StoredCookie)], OtherCookie c := by
    intro c member
    obtain rfl := List.mem_singleton.mp member
    exact ⟨by decide, ⟨by decide, by decide, by decide⟩, by decide, by decide, by decide⟩
  have access : TokenText sampleSession.accessToken := by decide
  have refresh : TokenText sampleSession.refreshToken := by decide
  have rooted : "/api/auth/users".toList.head? = some '/' := by decide
  have read := @session_round_trip sampleSerialize sampleConfig decimal sampleSession _
    sampleSerialize_writesTokens numeric access refresh foreign .serverAction "/login" 0 0 899999 _ rooted
  exact ⟨read.1.trans (congrArg Except.ok (if_pos (by decide))),
    read.2.trans (congrArg Except.ok (if_pos (by decide)))⟩

end Arac.Web
