/-
# Arac.Web.Cookies -- Set-Cookie headers, and the cookies a browser keeps

A header is parsed by the server actions of the web app (`parseSetCookie`), by its
middleware (`applySetCookies`) and by the browser, each with a loop of its own over
the attributes (`readAttributes`).  `HeaderFormat` is what is known of the library
that writes the headers: a name, an encoded value, and attributes out of a fixed
list.  For such a header all three read the same name and the same path.

The browser stores a cookie with its path and sends it where the path of the request
path-matches it.
-/
import Arac.Config.Configuration
import Mathlib.Data.List.TakeWhile

namespace Arac.Web

set_option autoImplicit false

/-! ## Strings -/

/-- `s.split(c)`. -/
def split (c : Char) (s : String) : List String := (s.toList.splitOn c).map String.ofList

/-- `parts.join(c)`. -/
def join (c : Char) (parts : List String) : String :=
  String.ofList ([c].intercalate (parts.map String.toList))

/-- `toLowerCase`, on ASCII letters.  No other character has a letter of an attribute
name in lower case that matters here. -/
def lower (s : String) : String := String.ofList (s.toList.map Char.toLower)

theorem split_join {c : Char} {parts : List String} (some : parts ≠ [])
    (apart : ∀ s ∈ parts, c ∉ s.toList) : split c (join c parts) = parts := by
  unfold split join
  rw [String.toList_ofList, List.splitOn_intercalate]
  · simp [Function.comp_def]
  · simpa using apart
  · simpa using some

/-- The parts of a text consist of its characters. -/
theorem subset_of_mem_split {c : Char} {s part : String} (member : part ∈ split c s) :
    part.toList ⊆ s.toList := by
  obtain ⟨chars, split_in, rfl⟩ := List.mem_map.mp member
  obtain ⟨i, at_i⟩ := List.mem_iff_getElem?.mp split_in
  have among : chars ∈ (s.toList.splitOn c).intersperse [c] := by
    refine List.mem_of_getElem? (i := 2 * i) ?_
    rw [List.getElem?_intersperse_two_mul, at_i]
  intro d d_in
  rw [String.toList_ofList] at d_in
  have whole : [c].intercalate (s.toList.splitOn c) = s.toList := List.intercalate_splitOn c
  rw [← whole]
  exact List.mem_flatten.mpr ⟨chars, among, d_in⟩

/-! ## Attributes -/

/-- `attr.split("=")`, of which the first two parts are taken. -/
def readAttribute (attr : String) : String × Option String :=
  match split '=' attr with
  | [] => ("", none)
  | k :: rest => (lower (trim k), rest.head?.map trim)

/-- The same in the browser, which splits at the first `=` only. -/
def browserAttribute (attr : String) : String × Option String :=
  let k := attr.toList.takeWhile (· ≠ '=')
  let rest := attr.toList.dropWhile (· ≠ '=')
  (lower (trim (String.ofList k)), some (trim (String.ofList rest.tail)))

/-- The loop over the attributes: of each kind the last one counts. -/
def readAttributes {P : Type} (onPath : Option String → P)
    (number : Option String → Option Int) (attrs : List (String × Option String)) (start : P) :
    P × Option Int :=
  attrs.foldl (fun read attr =>
    if attr.1 = "path" then (onPath attr.2, read.2)
    else if attr.1 = "max-age" then (read.1, number attr.2)
    else read) (start, none)

/-- Where every path attribute has the same value, that value is read. -/
theorem readAttributes_path {P : Type} (onPath : Option String → P)
    (number : Option String → Option Int) {attrs : List (String × Option String)} {v : Option String}
    (same : ∀ attr ∈ attrs, attr.1 = "path" → attr.2 = v) (some : ∃ attr ∈ attrs, attr.1 = "path")
    (start : P) : (readAttributes onPath number attrs start).1 = onPath v := by
  have loop : ∀ (attrs : List (String × Option String)) (read : P × Option Int),
      (∀ attr ∈ attrs, attr.1 = "path" → attr.2 = v) →
      (read.1 = onPath v ∨ ∃ attr ∈ attrs, attr.1 = "path") →
      (attrs.foldl (fun read attr =>
        if attr.1 = "path" then (onPath attr.2, read.2)
        else if attr.1 = "max-age" then (read.1, number attr.2)
        else read) read).1 = onPath v := by
    intro attrs
    induction attrs with
    | nil =>
        intro read _ done
        simpa using done
    | cons attr attrs ih =>
        intro read same done
        have later : ∀ a ∈ attrs, a.1 = "path" → a.2 = v :=
          fun a member => same a (List.mem_cons_of_mem _ member)
        apply ih _ later
        by_cases here : attr.1 = "path"
        · left
          simp [here, same attr List.mem_cons_self here]
        · rcases done with read_it | ⟨a, member, is_path⟩
          · left
            simp only [here, if_false]
            split <;> exact read_it
          · rcases List.mem_cons.mp member with rfl | member
            · exact absurd is_path here
            · exact Or.inr ⟨a, member, is_path⟩
  exact loop attrs _ same (Or.inr some)

/-! ## Headers -/

/-- The options of `res.cookie`; `maxAge` is in milliseconds. -/
structure CookieOptions where
  httpOnly : Bool
  secure : Bool
  sameSite : Config.CookieSameSite
  domain : Option String
  path : String
  maxAge : Nat

/-- The attributes that occur in a header. -/
def attributeNames : List String :=
  ["Max-Age", "Domain", "Path", "Expires", "HttpOnly", "Secure", "SameSite"]

def renderAttribute : String × Option String → String
  | (k, none) => " " ++ k
  | (k, some v) => " " ++ k ++ "=" ++ v

def renderHeader (name value : String) (attrs : List (String × Option String)) : String :=
  join ';' ((name ++ "=" ++ value) :: attrs.map renderAttribute)

/-- A header for a cookie: the path is one of the attributes, and nothing contains a
semicolon. -/
def IsHeader (name path raw : String) : Prop :=
  ∃ value attrs, raw = renderHeader name value attrs ∧ ';' ∉ value.toList ∧
    (∀ attr ∈ attrs, attr.1 ∈ attributeNames ∧ ∀ v ∈ attr.2, ';' ∉ v.toList) ∧
    ("Path", some path) ∈ attrs ∧ ∀ v, ("Path", v) ∈ attrs → v = some path

/-- How the library writes the header of a cookie. -/
def HeaderFormat (serialize : String → String → CookieOptions → String) : Prop :=
  ∀ name value options, '=' ∉ name.toList → ';' ∉ name.toList → ';' ∉ options.path.toList →
    IsHeader name options.path (serialize name value options)

structure Header where
  name : String
  value : String
  attrs : List String

/-- The first part of every parser.  A pair without `=` is skipped. -/
def readHeader (raw : String) : Option Header :=
  match split ';' raw with
  | [] => none
  | pair :: attrs =>
      if '=' ∈ pair.toList then
        some { name := trim (String.ofList (pair.toList.takeWhile (· ≠ '=')))
               value := trim (String.ofList (pair.toList.dropWhile (· ≠ '=')).tail)
               attrs }
      else none

structure ParsedCookie where
  name : String
  value : String
  path : Option String
  /-- `undefined` and `NaN` are both `none`. -/
  maxAge : Option Int

/-- What `cookies.set` is given. -/
structure ResponseCookie where
  name : String
  value : String
  path : String
  maxAge : Option Int
  deriving DecidableEq

section

variable (number : Option String → Option Int)

/-- `parseSetCookie` of the server actions. -/
def parseSetCookie (raw : String) : Option ParsedCookie := do
  let header ← readHeader raw
  let (path, maxAge) := readAttributes id number (header.attrs.map readAttribute) none
  return { name := header.name, value := header.value, path, maxAge }

/-- `applyUpstreamCookies` of the server actions. -/
def applyUpstreamCookies (headers : List String) : List ResponseCookie :=
  headers.filterMap fun raw => (parseSetCookie number raw).map fun c =>
    { name := c.name, value := c.value, path := c.path.getD "/", maxAge := c.maxAge }

/-- `v?.trim() || "/"`. -/
def pathOrRoot (v : Option String) : String := (v.filter (· ≠ "")).getD "/"

/-- `applySetCookies` of the middleware. -/
def applySetCookies (headers : List String) : List ResponseCookie :=
  headers.filterMap fun raw => do
    let header ← readHeader raw
    let (path, maxAge) := readAttributes pathOrRoot number (header.attrs.map readAttribute) "/"
    return { name := header.name, value := header.value, path, maxAge }

/-- What a browser reads off a header; a cookie without a name is ignored. -/
def browserParse (headers : List String) : List ResponseCookie :=
  headers.filterMap fun raw => do
    let header ← readHeader raw
    if header.name = "" then none else
      let (path, maxAge) :=
        readAttributes (·.getD "") number (header.attrs.map browserAttribute) ""
      return { name := header.name, value := header.value, path, maxAge }

/-- How the headers of the auth service come to the browser: through a server action,
through the proxy that copies them, or through the middleware. -/
inductive Delivery where
  | serverAction
  | proxy
  | middleware

def received (headers : List String) : Delivery → List ResponseCookie
  | .serverAction => applyUpstreamCookies number headers
  | .proxy => browserParse number headers
  | .middleware => applySetCookies number headers

end

/-! ## The headers of the library -/

section

variable {name path raw s t : String} {number : Option String → Option Int}

theorem takeWhile_append_eq {s t : List Char} (without : '=' ∉ s) :
    (s ++ '=' :: t).takeWhile (· ≠ '=') = s ∧ (s ++ '=' :: t).dropWhile (· ≠ '=') = '=' :: t := by
  have keeps : ∀ c ∈ s, decide (c ≠ '=') = true := by
    intro c member
    simp only [decide_eq_true_eq]
    rintro rfl
    exact without member
  constructor
  · rw [List.takeWhile_append_of_pos keeps]
    simp
  · rw [List.dropWhile_append_of_pos keeps]
    simp

theorem split_append (without : '=' ∉ s.toList) :
    split '=' (s ++ "=" ++ t) = s :: split '=' t := by
  have chars : (s ++ "=" ++ t).toList = s.toList ++ '=' :: t.toList := by simp
  unfold split
  rw [chars, List.splitOn_append_cons_self, List.splitOn_eq_singleton without]
  simp

theorem split_of_not_mem (without : '=' ∉ s.toList) : split '=' s = [s] := by
  unfold split
  rw [List.splitOn_eq_singleton without]
  simp

/-- A reading of attributes that tells the path from the other names of the list. -/
structure ReadsPath (read : String → String × Option String) (path : String) : Prop where
  path : read (renderAttribute ("Path", some path)) = ("path", some path)
  names : ∀ attr, attr.1 ∈ attributeNames → (read (renderAttribute attr)).1 = "path" →
    attr.1 = "Path"

theorem attributeNames_lower : ∀ k ∈ attributeNames, '=' ∉ (" " ++ k).toList ∧
    (lower (trim (" " ++ k)) = "path" → k = "Path") := by decide

theorem readsPath_readAttribute (plain : '=' ∉ path.toList) (trimmed : trim path = path) :
    ReadsPath readAttribute path where
  path := by
    have here : split '=' (renderAttribute ("Path", some path)) = [" Path", path] := by
      have first : '=' ∉ (" " ++ "Path").toList := by decide
      rw [renderAttribute, split_append first, split_of_not_mem plain]
      rfl
    have key : lower (trim " Path") = "path" := by decide
    simp [readAttribute, here, key, trimmed]
  names attr known is_path := by
    obtain ⟨plain, only⟩ := attributeNames_lower attr.1 known
    apply only
    rcases attr with ⟨k, _ | v⟩
    · simpa [readAttribute, renderAttribute, split_of_not_mem plain] using is_path
    · simpa [readAttribute, renderAttribute, split_append plain] using is_path

theorem readsPath_browserAttribute (trimmed : trim path = path) :
    ReadsPath browserAttribute path where
  path := by
    have chars : (renderAttribute ("Path", some path)).toList = " Path".toList ++ '=' :: path.toList := by
      simp [renderAttribute]
    have first : '=' ∉ " Path".toList := by decide
    have key : lower (trim " Path") = "path" := by decide
    simp only [browserAttribute, chars, takeWhile_append_eq first, String.ofList_toList, key,
      List.tail_cons, trimmed]
  names attr known is_path := by
    obtain ⟨plain, only⟩ := attributeNames_lower attr.1 known
    apply only
    rcases attr with ⟨k, _ | v⟩
    · have chars : (renderAttribute (k, none)).toList.takeWhile (· ≠ '=') = (" " ++ k).toList := by
        apply List.takeWhile_eq_self_iff.mpr
        intro c member
        simp only [decide_eq_true_eq]
        rintro rfl
        exact plain member
      simpa only [browserAttribute, chars, String.ofList_toList] using is_path
    · have chars : (renderAttribute (k, some v)).toList = (" " ++ k).toList ++ '=' :: v.toList := by
        simp [renderAttribute]
      simpa only [browserAttribute, chars, takeWhile_append_eq plain, String.ofList_toList] using is_path

variable (number) in
/-- Name and path of a header, as every parser reads them. -/
theorem readHeader_of_isHeader (isHeader : IsHeader name path raw) (plain : '=' ∉ name.toList)
    (clean : ';' ∉ name.toList) {read : String → String × Option String}
    (reads : ReadsPath read path) :
    ∃ header, readHeader raw = some header ∧ header.name = trim name ∧
      ∀ {P : Type} (onPath : Option String → P) (start : P),
        (readAttributes onPath number (header.attrs.map read) start).1 = onPath (some path) := by
  obtain ⟨value, attrs, rfl, no_semi, known, there, only⟩ := isHeader
  have parts : split ';' (renderHeader name value attrs) =
      (name ++ "=" ++ value) :: attrs.map renderAttribute := by
    apply split_join (by simp)
    intro part member
    rcases List.mem_cons.mp member with rfl | member
    · simp [clean, no_semi]
    · obtain ⟨⟨k, v⟩, attr_in, rfl⟩ := List.mem_map.mp member
      obtain ⟨named, v_clean⟩ := known _ attr_in
      have k_clean : ∀ k ∈ attributeNames, ';' ∉ (" " ++ k).toList := by decide
      cases v with
      | none => exact k_clean k named
      | some v =>
          have v_clean := v_clean v rfl
          have k_clean := k_clean k named
          simp only [renderAttribute, String.toList_append, List.mem_append, not_or] at k_clean ⊢
          refine ⟨⟨k_clean, ?_⟩, v_clean⟩
          decide
  have chars : (name ++ "=" ++ value).toList = name.toList ++ '=' :: value.toList := by simp
  refine ⟨⟨trim name, trim value, attrs.map renderAttribute⟩, ?_, rfl, ?_⟩
  · simp only [readHeader, parts, chars, takeWhile_append_eq plain]
    simp
  · intro P onPath start
    refine readAttributes_path onPath number ?_ ?_ start
    · intro attr member is_path
      obtain ⟨_, rendered, rfl⟩ := List.mem_map.mp member
      obtain ⟨⟨k, v⟩, attr_in, rfl⟩ := List.mem_map.mp rendered
      obtain rfl : k = "Path" := reads.names _ (known _ attr_in).1 is_path
      obtain rfl := only v attr_in
      rw [reads.path]
    · refine ⟨read (renderAttribute ("Path", some path)), ?_, by rw [reads.path]⟩
      exact List.mem_map_of_mem (List.mem_map_of_mem there)

/-- Whoever copies the header, the cookie has the name and the path that the auth
service gave it. -/
theorem received_of_isHeader (isHeader : IsHeader name path raw) (plain : '=' ∉ name.toList)
    (clean : ';' ∉ name.toList) (named : trim name = name) (path_plain : '=' ∉ path.toList)
    (trimmed : trim path = path) (nonempty : path ≠ "") {d : Delivery} {c : ResponseCookie}
    (member : c ∈ received number [raw] d) : c.name = name ∧ c.path = path := by
  cases d with
  | serverAction =>
      obtain ⟨header, read, same, paths⟩ := readHeader_of_isHeader number isHeader plain clean
        (readsPath_readAttribute path_plain trimmed)
      simp only [received, applyUpstreamCookies, parseSetCookie, read, List.filterMap_cons,
        List.filterMap_nil] at member
      obtain rfl := List.mem_singleton.mp member
      exact ⟨same.trans named, by simp [paths]⟩
  | proxy =>
      obtain ⟨header, read, same, paths⟩ := readHeader_of_isHeader number isHeader plain clean
        (readsPath_browserAttribute trimmed)
      simp only [received, browserParse, read, List.filterMap_cons, List.filterMap_nil] at member
      by_cases unnamed : header.name = ""
      · simp [unnamed] at member
      · simp only [Option.bind_eq_bind, Option.bind_some, unnamed, if_false, Option.pure_def] at member
        obtain rfl := List.mem_singleton.mp member
        exact ⟨same.trans named, by simp [paths]⟩
  | middleware =>
      obtain ⟨header, read, same, paths⟩ := readHeader_of_isHeader number isHeader plain clean
        (readsPath_readAttribute path_plain trimmed)
      simp only [received, applySetCookies, read, List.filterMap_cons, List.filterMap_nil] at member
      obtain rfl := List.mem_singleton.mp member
      have kept : pathOrRoot (some path) = path := by simp [pathOrRoot, Option.filter, nonempty]
      exact ⟨same.trans named, by simp only [paths, kept]⟩

theorem mem_received {headers : List String} {d : Delivery} {c : ResponseCookie}
    (member : c ∈ received number headers d) : ∃ raw ∈ headers, c ∈ received number [raw] d := by
  cases d <;> simpa [received, applyUpstreamCookies, browserParse, applySetCookies] using member

end

/-! ## The browser -/

/-- Path-match: the path of the cookie is the path of the request, or a prefix of it
that ends at a slash. -/
def pathMatch (requestPath cookiePath : String) : Bool :=
  requestPath = cookiePath ||
    (cookiePath.toList.isPrefixOf requestPath.toList &&
      (cookiePath.toList.getLast? = some '/' ||
        requestPath.toList[cookiePath.toList.length]? = some '/'))

theorem isPrefix_of_pathMatch {requestPath cookiePath : String}
    (matches_ : pathMatch requestPath cookiePath = true) :
    cookiePath.toList <+: requestPath.toList := by
  simp only [pathMatch, Bool.or_eq_true, Bool.and_eq_true, decide_eq_true_eq] at matches_
  rcases matches_ with rfl | ⟨pre, -⟩
  · exact List.prefix_rfl
  · exact List.isPrefixOf_iff_prefix.mp pre

/-- The path of a cookie that came without one: the directory of the request. -/
def defaultPath (requestPath : String) : String :=
  let directory := (requestPath.toList.reverse.dropWhile (· ≠ '/')).tail.reverse
  if directory.head? = some '/' then String.ofList directory else "/"

/-- A cookie in the browser; `expires` is in milliseconds. -/
structure StoredCookie where
  name : String
  value : String
  path : String
  expires : Option Int
  deriving DecidableEq

/-- The browser keeps a cookie that came with the answer to a request. -/
def ResponseCookie.store (now : Nat) (requestPath : String) (c : ResponseCookie) : StoredCookie :=
  { name := c.name
    value := c.value
    path := if c.path.toList.head? = some '/' then c.path else defaultPath requestPath
    expires := c.maxAge.map fun seconds => now + seconds * 1000 }

def StoredCookie.Live (now : Nat) (c : StoredCookie) : Prop := ∀ t ∈ c.expires, now < t

instance (now : Nat) (c : StoredCookie) : Decidable (c.Live now) :=
  inferInstanceAs (Decidable (∀ t ∈ c.expires, (now : Int) < t))

/-- The cookies that go with a request: not expired, and path-matched. -/
def cookiesFor (now : Nat) (requestPath : String) (jar : List StoredCookie) :
    List (String × String) :=
  (jar.filter fun c => c.Live now ∧ pathMatch requestPath c.path).map fun c => (c.name, c.value)

end Arac.Web
