import GameClub.Common.Exceptions
import GameClub.Common.Text
import GameClub.Lib.Capture

/-! # The handshake of a socket

The gateway takes the access token from the handshake, the HTTP guard from the request. Where there
is only a `Cookie` header, the guard looks the cookie up by its name, and the gateway searches the
header for `access_token=([^;]+)`, which may stand at the end of another name or inside a value.

* `capture_header`: the search goes through the pairs of the header one by one.
* `readsAccessCookie_iff`: the gateway reads the access cookie exactly when the first pair with a
  match is that cookie, or holds the same text.
* `old_cookie_read`: a cookie whose name ends in `access_token`. -/

namespace GameClub.Realtime

open GameClub.Lib GameClub.Common

/-! ### The two readers -/

/-- What the gateway reads of `client.handshake`. -/
structure Handshake where
  authToken : Option String
  authorization : Option String
  cookie : Option String

/-- `text.replace(/^Bearer\s+/i, '')` -/
def stripBearer (text : String) : String :=
  let rest := text.toList.drop 6
  if (text.toList.take 6).map Char.toLower = "bearer".toList ∧ (rest.takeWhile isSpace) ≠ [] then
    String.ofList (rest.dropWhile isSpace)
  else text

/-- The token of a header that starts with `Bearer `. -/
def bearerToken (header : Option String) : Option String :=
  (header.filter fun h => "Bearer ".toList.isPrefixOf h.toList).map fun h =>
    String.ofList (h.toList.drop 7)

def accessToken : List Char := "access_token".toList

/-- `access_token=([^;]+)` in a header. -/
def accessMatch (cookie : List Char) : Option (List Char) :=
  Capture.capture (accessToken ++ ['=']) ';' cookie

namespace RealtimeGateway

def extractToken (handshake : Handshake) : Except Thrown String :=
  match handshake.authToken.filter (· ≠ "") with
  | some authToken => .ok (stripBearer authToken)
  | none =>
    match bearerToken handshake.authorization with
    | some token => .ok token
    | none =>
      match accessMatch (handshake.cookie.getD "").toList with
      | none => .error (.error "No token")
      | some text =>
        match decodeURIComponent text with
        | none => .error (.error "URI malformed")
        | some token => .ok (String.ofList token)

end RealtimeGateway

/-- What the guard reads of a request: `cookies` are the named cookies, in their order. -/
structure HttpRequest where
  authorization : Option String
  cookies : List (List Char × String)

namespace JwtAuthGuard

def extractToken (req : HttpRequest) : Option String :=
  match bearerToken req.authorization with
  | some token => some token
  | none => req.cookies.lookup accessToken

end JwtAuthGuard

/-! ### Cookie headers -/

/-- A `name=value` pair, and what the value decodes to. -/
structure CookiePair where
  name : List Char
  value : List Char
  decoded : String
  name_ok : '=' ∉ name ∧ ';' ∉ name ∧ ' ' ∉ name
  value_ok : value ≠ [] ∧ ';' ∉ value ∧ ' ' ∉ value
  decodes : (decodeURIComponent value).map String.ofList = some decoded

def CookiePair.text (p : CookiePair) : List Char := p.name ++ '=' :: p.value

/-- The header of the pairs, separated by `; `. -/
def cookieHeader (pairs : List CookiePair) : List Char :=
  List.intercalate "; ".toList (pairs.map CookiePair.text)

/-- A handshake with this header and no other credential. -/
def cookieOnly (pairs : List CookiePair) : Handshake :=
  ⟨none, none, some (String.ofList (cookieHeader pairs))⟩

/-- The named cookies of the header; the first of a name is the one that is looked up. -/
def cookieParser (pairs : List CookiePair) : List (List Char × String) :=
  pairs.map fun p => (p.name, p.decoded)

/-- The first pair with the name `access_token`. -/
def accessCookie (pairs : List CookiePair) : Option CookiePair :=
  pairs.find? fun p => p.name = accessToken

/-- **The gateway reads the access cookie**, and throws when there is none. -/
def ReadsAccessCookie (pairs : List CookiePair) : Prop :=
  match accessCookie pairs with
  | some p => RealtimeGateway.extractToken (cookieOnly pairs) = .ok p.decoded
  | none => ∃ e, RealtimeGateway.extractToken (cookieOnly pairs) = .error e

/-- **The guard looks the access cookie up.** -/
theorem guard_extractToken (pairs : List CookiePair) :
    JwtAuthGuard.extractToken ⟨none, cookieParser pairs⟩ =
      (accessCookie pairs).map CookiePair.decoded := by
  have hbearer : bearerToken none = none := rfl
  unfold JwtAuthGuard.extractToken accessCookie cookieParser
  rw [hbearer]
  dsimp only
  induction pairs with
  | nil => rfl
  | cons p pairs ih =>
    rw [List.map_cons, List.lookup_cons, List.find?_cons, ih]
    by_cases h : p.name = accessToken
    · simp [h]
    · have hne : (accessToken == p.name) = false := beq_eq_false_iff_ne.mpr (Ne.symm h)
      simp [h, hne]

/-! ### The search in a header -/

/-- **The search finds `text` in the pair**: the name ends in `access_token` and `text` is the value,
or `text` is what follows `access_token=` at its first place in the value with something after. -/
def FoundIn (p : CookiePair) (text : List Char) : Prop :=
  (accessToken <:+ p.name ∧ text = p.value) ∨
    (¬ accessToken <:+ p.name ∧ ∃ before, p.value = before ++ (accessToken ++ '=' :: text) ∧
      text ≠ [] ∧ ∀ before' text', p.value = before' ++ (accessToken ++ '=' :: text') → text' ≠ [] →
        before.length ≤ before'.length)

/-- The name ends in `access_token`, or the value has `access_token=` and something after it. -/
def Matches (p : CookiePair) : Prop :=
  accessToken <:+ p.name ∨
    ∃ before text, p.value = before ++ (accessToken ++ '=' :: text) ∧ text ≠ []

/-- The first pair of the header in which something is found. -/
def FirstMatch (pairs : List CookiePair) (p : CookiePair) : Prop :=
  ∃ before after, pairs = before ++ p :: after ∧ Matches p ∧ ∀ q ∈ before, ¬ Matches q

/-- What the search finds in a pair. -/
def pairMatch (p : CookiePair) : Option (List Char) :=
  if accessToken <:+ p.name then some p.value else accessMatch p.value

theorem marker_ne : accessToken ++ ['='] ≠ [] := by simp

theorem semicolon_not_mem_marker : ';' ∉ accessToken ++ ['='] := by decide

/-- **One pair.** -/
theorem accessMatch_text (p : CookiePair) : accessMatch p.text = pairMatch p := by
  obtain ⟨hne, hsemicolon, -⟩ := p.value_ok
  have hvalue : Capture.upTo ';' p.value = p.value := Capture.upTo_eq_self hsemicolon
  have hsome : Capture.upTo ';' p.value ≠ [] := by
    rw [hvalue]
    exact hne
  have h : accessMatch p.text = if accessToken <:+ p.name then some (Capture.upTo ';' p.value)
      else accessMatch p.value := Capture.capture_named (by decide) p.name_ok.1 hsome
  rw [hvalue] at h
  exact h

/-- **The search goes through the pairs one by one.** -/
theorem capture_header (pairs : List CookiePair) :
    accessMatch (cookieHeader pairs) = pairs.findSome? pairMatch := by
  induction pairs with
  | nil => rfl
  | cons p pairs ih =>
    have hsemicolon : ';' ∉ p.text := by
      simp [CookiePair.text, p.name_ok.2.1, p.value_ok.2.1]
    have hp := accessMatch_text p
    rw [List.findSome?_cons]
    rcases pairs with _ | ⟨q, pairs⟩
    · rw [cookieHeader, List.map_singleton, List.intercalate_singleton, hp]
      cases pairMatch p <;> rfl
    · have hheader : cookieHeader (p :: q :: pairs) =
          p.text ++ ';' :: ' ' :: cookieHeader (q :: pairs) := by
        simp [cookieHeader, List.intercalate_cons_cons]
      have hspace : accessMatch (' ' :: cookieHeader (q :: pairs)) =
          accessMatch (cookieHeader (q :: pairs)) :=
        Capture.capture_cons_ne (by decide) marker_ne
      unfold accessMatch at hspace hp ih ⊢
      rw [hheader, Capture.capture_stop semicolon_not_mem_marker marker_ne hsemicolon, hspace, hp, ih]
      cases pairMatch p <;> rfl

/-! ### What is found in a pair -/

theorem pairMatch_eq_some {p : CookiePair} {text : List Char} :
    pairMatch p = some text ↔ FoundIn p text := by
  unfold pairMatch FoundIn
  by_cases hname : accessToken <:+ p.name
  · simp [hname, eq_comm]
  · have hwhole : ∀ before after, p.value = before ++ (accessToken ++ ['='] ++ after) →
        Capture.upTo ';' after = after := fun before after heq =>
      Capture.upTo_eq_self fun h => p.value_ok.2.1 (by rw [heq]; simp [h])
    rw [if_neg hname]
    simp only [hname, false_and, false_or, not_false_eq_true, true_and]
    unfold accessMatch
    rw [Capture.capture_eq_some marker_ne]
    constructor
    · rintro ⟨before, after, heq, hfound, hne, hfirst⟩
      rw [hwhole before after heq] at hfound
      subst hfound
      refine ⟨before, by simpa using heq, hne, fun before' text' heq' hne' => ?_⟩
      have heq'' : p.value = before' ++ (accessToken ++ ['='] ++ text') := by simpa using heq'
      exact hfirst before' text' heq'' (by rw [hwhole before' text' heq'']; exact hne')
    · rintro ⟨before, heq, hne, hfirst⟩
      have heq' : p.value = before ++ (accessToken ++ ['='] ++ text) := by simpa using heq
      refine ⟨before, text, heq', hwhole before text heq', hne, fun before' after' heq'' hne' => ?_⟩
      rw [hwhole before' after' heq''] at hne'
      exact hfirst before' after' (by simpa using heq'') hne'

theorem pairMatch_ne_none {p : CookiePair} : pairMatch p ≠ none ↔ Matches p := by
  unfold pairMatch Matches
  by_cases hname : accessToken <:+ p.name
  · simp [hname]
  · rw [if_neg hname]
    simp only [hname, false_or]
    unfold accessMatch
    rw [Ne, Capture.capture_eq_none marker_ne]
    push Not
    constructor
    · rintro ⟨before, after, heq, hne⟩
      refine ⟨before, after, by simpa using heq, ?_⟩
      rintro rfl
      exact hne rfl
    · rintro ⟨before, text, heq, hne⟩
      have hsemicolon : ';' ∉ text := fun h => p.value_ok.2.1 (by rw [heq]; simp [h])
      exact ⟨before, text, by simpa using heq, by rwa [Capture.upTo_eq_self hsemicolon]⟩

/-- **What is found decodes**: it is the value, or follows a character that stands for itself. -/
theorem FoundIn.decodes {p : CookiePair} {text : List Char} (h : FoundIn p text) :
    ∃ token, decodeURIComponent text = some token := by
  obtain ⟨decoded, hdecoded, -⟩ := Option.map_eq_some_iff.mp p.decodes
  rcases h with ⟨-, rfl⟩ | ⟨-, before, heq, -, -⟩
  · exact ⟨decoded, hdecoded⟩
  · have hsplit : p.value = (before ++ accessToken) ++ '=' :: text := by rw [heq]; simp
    rw [hsplit] at hdecoded
    exact decodeURIComponent_suffix (by decide) (by decide) hdecoded

/-- An access cookie is matched, and its value found. -/
theorem matches_of_name {p : CookiePair} (h : p.name = accessToken) :
    Matches p ∧ FoundIn p p.value :=
  ⟨Or.inl (by rw [h]), Or.inl ⟨by rw [h], rfl⟩⟩

theorem FoundIn.unique {p : CookiePair} {text text' : List Char} (h : FoundIn p text)
    (h' : FoundIn p text') : text = text' := by
  have hsame := pairMatch_eq_some.mpr h
  rw [pairMatch_eq_some.mpr h'] at hsame
  exact (Option.some.inj hsame).symm

/-! ### The token -/

/-- The first match of a header, if there is one. -/
theorem findSome?_pairMatch (pairs : List CookiePair) :
    (pairs.findSome? pairMatch = none ∧ ∀ p ∈ pairs, ¬ Matches p) ∨
    ∃ p text, FirstMatch pairs p ∧ FoundIn p text ∧ pairs.findSome? pairMatch = some text := by
  cases hfound : pairs.findSome? pairMatch with
  | none =>
    refine Or.inl ⟨rfl, fun p hp hmatch => ?_⟩
    exact pairMatch_ne_none.mpr hmatch (List.findSome?_eq_none_iff.mp hfound p hp)
  | some text =>
    obtain ⟨before, p, after, heq, hp, hbefore⟩ := List.findSome?_eq_some_iff.mp hfound
    refine Or.inr ⟨p, text, ⟨before, after, heq, ?_, fun q hq hmatch => ?_⟩,
      pairMatch_eq_some.mp hp, rfl⟩
    · exact pairMatch_ne_none.mp (by rw [hp]; simp)
    · exact pairMatch_ne_none.mpr hmatch (hbefore q hq)

/-- **The token of a header**: what the first match decodes to. -/
theorem extractToken_cookieOnly (pairs : List CookiePair) :
    RealtimeGateway.extractToken (cookieOnly pairs) =
      match pairs.findSome? pairMatch with
      | none => .error (.error "No token")
      | some text =>
        match decodeURIComponent text with
        | none => .error (.error "URI malformed")
        | some token => .ok (String.ofList token) := by
  have hheader : ((some (String.ofList (cookieHeader pairs))).getD "").toList =
      cookieHeader pairs := String.toList_ofList
  rw [← capture_header, ← hheader]
  rfl

/-- No pair before the first match is an access cookie. -/
theorem accessCookie_firstMatch {pairs : List CookiePair} {p : CookiePair}
    (h : FirstMatch pairs p) (hname : p.name = accessToken) : accessCookie pairs = some p := by
  obtain ⟨before, after, rfl, -, hbefore⟩ := h
  unfold accessCookie
  have hnone : before.find? (fun q => q.name = accessToken) = none :=
    List.find?_eq_none.mpr fun q hq hq' => hbefore q hq (matches_of_name (by simpa using hq')).1
  rw [List.find?_append, hnone, List.find?_cons_of_pos (by simpa using hname)]
  rfl

/-- There is one first match. -/
theorem FirstMatch.unique {pairs : List CookiePair} {p q : CookiePair} (hp : FirstMatch pairs p)
    (hq : FirstMatch pairs q) : p = q := by
  have hfind : ∀ {r : CookiePair}, FirstMatch pairs r →
      pairs.find? (fun x => (pairMatch x).isSome) = some r := by
    rintro r ⟨before, after, rfl, hmatch, hbefore⟩
    have hnone : before.find? (fun x => (pairMatch x).isSome) = none :=
      List.find?_eq_none.mpr fun x hx hx' =>
        hbefore x hx (pairMatch_ne_none.mp (Option.isSome_iff_ne_none.mp hx'))
    have hsome : (pairMatch r).isSome = true :=
      Option.isSome_iff_ne_none.mpr (pairMatch_ne_none.mpr hmatch)
    have hcons : (r :: after).find? (fun x => (pairMatch x).isSome) = some r :=
      List.find?_cons_of_pos hsome
    rw [List.find?_append, hnone, hcons]
    rfl
  have hsame := hfind hp
  rw [hfind hq] at hsame
  exact (Option.some.inj hsame).symm

/-- **The gateway reads the access cookie** exactly when the first pair with a match is an access
cookie, or what is found there decodes to what the access cookie does. This is the cookie that the
guard looks up. -/
theorem readsAccessCookie_iff (pairs : List CookiePair) :
    (ReadsAccessCookie pairs ↔ ∀ p, FirstMatch pairs p → p.name = accessToken ∨
      ∃ q text, accessCookie pairs = some q ∧ FoundIn p text ∧
        (decodeURIComponent text).map String.ofList = some q.decoded) ∧
    JwtAuthGuard.extractToken ⟨none, cookieParser pairs⟩ =
      (accessCookie pairs).map CookiePair.decoded := by
  refine ⟨?_, guard_extractToken pairs⟩
  unfold ReadsAccessCookie
  rw [extractToken_cookieOnly]
  rcases findSome?_pairMatch pairs with ⟨hnone, hno⟩ | ⟨p, text, hfirst, hfound, hsome⟩
  · -- nothing is found, and there is no access cookie
    have hcookie : accessCookie pairs = none := by
      refine List.find?_eq_none.mpr fun p hp hname => hno p hp ?_
      exact (matches_of_name (by simpa using hname)).1
    rw [hnone, hcookie]
    refine ⟨fun _ p hp => ?_, fun _ => ⟨_, rfl⟩⟩
    obtain ⟨before, after, rfl, hmatch, -⟩ := hp
    exact absurd hmatch (hno p (by simp))
  · obtain ⟨token, htoken⟩ := hfound.decodes
    rw [hsome]
    simp only [htoken]
    constructor
    · intro h p' hp'
      obtain rfl := hfirst.unique hp'
      cases hcookie : accessCookie pairs with
      | none =>
        rw [hcookie] at h
        obtain ⟨e, he⟩ := h
        cases he
      | some q =>
        rw [hcookie] at h
        refine Or.inr ⟨q, text, rfl, hfound, ?_⟩
        rw [htoken, Option.map_some, Except.ok.inj h]
    · intro h
      rcases h p hfirst with hname | ⟨q, text', hcookie, hfound', hdecoded⟩
      · rw [accessCookie_firstMatch hfirst hname]
        have hvalue : text = p.value := hfound.unique (matches_of_name hname).2
        have hdecodes := p.decodes
        rw [← hvalue, htoken] at hdecodes
        exact congrArg Except.ok (Option.some.inj hdecodes)
      · rw [hcookie]
        rw [← hfound.unique hfound', htoken] at hdecoded
        exact congrArg Except.ok (Option.some.inj hdecoded)

/-! ### A cookie of another name -/

/-- A cookie with plain characters in its value. -/
def oldCookie : CookiePair :=
  ⟨"old_access_token".toList, "abc".toList, "abc", by decide, by decide, by decide⟩

def newCookie : CookiePair :=
  ⟨"access_token".toList, "def".toList, "def", by decide, by decide, by decide⟩

/-- `old_access_token=abc; access_token=def`: the gateway reads `abc`, the guard `def`. -/
theorem old_cookie_read : ¬ (∀ pairs, ReadsAccessCookie pairs) ∧
    RealtimeGateway.extractToken (cookieOnly [oldCookie, newCookie]) = .ok "abc" ∧
    JwtAuthGuard.extractToken ⟨none, cookieParser [oldCookie, newCookie]⟩ = some "def" := by
  have hread : RealtimeGateway.extractToken (cookieOnly [oldCookie, newCookie]) = .ok "abc" := by
    rw [extractToken_cookieOnly]
    decide
  refine ⟨fun h => ?_, hread, by decide⟩
  have hcookie : accessCookie [oldCookie, newCookie] = some newCookie := rfl
  have hno := h [oldCookie, newCookie]
  unfold ReadsAccessCookie at hno
  rw [hcookie, hread] at hno
  exact absurd (Except.ok.inj hno) (by decide)

end GameClub.Realtime
