import CpcJudge.Bridge.Connection
import CpcJudge.Lib.Base64

/-!
# `Login.ApiToken` — the tokens of the API

A token is the id of an account and thirty-two random bytes, in sixty-four characters; the account keeps a digest of the
bytes. `APIMiddleware` reads the token of a request back, and lets it through as the account.
-/

namespace CpcJudge
namespace Login

open Bridge (Bytes number pack)

/-! ## The text of a token -/

/-- The alphabet of `urlsafe_b64encode`. -/
def urlsafe : Alphabet where
  char n :=
    if n < 26 then Char.ofNat (65 + n)
    else if n < 52 then Char.ofNat (71 + n)
    else if n < 62 then Char.ofNat (n - 4)
    else if n = 62 then '-' else '_'
  value c :=
    if 65 ≤ c.toNat ∧ c.toNat ≤ 90 then some (c.toNat - 65)
    else if 97 ≤ c.toNat ∧ c.toNat ≤ 122 then some (c.toNat - 71)
    else if 48 ≤ c.toNat ∧ c.toNat ≤ 57 then some (c.toNat + 4)
    else if c = '-' then some 62
    else if c = '_' then some 63
    else none
  value_char := by decide
  char_value := by
    intro c n h
    have hc : ∀ k, k = c.toNat → Char.ofNat k = c := fun k hk => by rw [hk, Char.ofNat_toNat]
    split at h
    · obtain rfl := Option.some.inj h
      refine ⟨by omega, ?_⟩
      rw [if_pos (by omega)]
      exact hc _ (by omega)
    · split at h
      · obtain rfl := Option.some.inj h
        refine ⟨by omega, ?_⟩
        rw [if_neg (by omega), if_pos (by omega)]
        exact hc _ (by omega)
      · split at h
        · obtain rfl := Option.some.inj h
          refine ⟨by omega, ?_⟩
          rw [if_neg (by omega), if_neg (by omega), if_pos (by omega)]
          exact hc _ (by omega)
        · split at h
          · rename_i hdash
            obtain rfl := Option.some.inj h
            exact ⟨by decide, hdash.symm⟩
          · split at h
            · rename_i hline
              obtain rfl := Option.some.inj h
              exact ⟨by decide, hline.symm⟩
            · cases h

/-- What `secrets.token_bytes(32)` returns. -/
abbrev Secret := { bytes : Bytes // bytes.length = 32 }

/-- `urlsafe_b64encode(struct.pack('>I32s', id, secret))`. -/
def token (id : ℕ) (secret : Secret) : List Char := Base64.encode urlsafe (pack id ++ secret.1)

/-- What comes before the token in a header. -/
def scheme : List Char := "Bearer ".toList

/-- `header_pattern`. Its `$` also matches before a last line break. -/
def headerToken (header : List Char) : Option (List Char) :=
  let rest := header.drop scheme.length
  let rest := if rest.getLast? = some '\n' then rest.dropLast else rest
  if scheme.isPrefixOf header ∧ rest.length = 48 ∧ rest.all fun c => (urlsafe.value c).isSome then some rest else none

/-- The id and the secret of a token. -/
def readToken (text : List Char) : Option (ℕ × Bytes) :=
  (Base64.decode urlsafe text).map fun bytes => (number (bytes.take 4), bytes.drop 4)

/-! ## The accounts -/

/-- The users, and the `api_token` of their profiles. -/
structure Accounts where
  users : ℕ → Option (Option String) := fun _ => none

/-- How the middleware answers: the request goes on, as an account or as it came, or it is refused. -/
inductive ApiAnswer where
  | passed (user : Option ℕ)
  | refused (message : String) (status : ℕ)
  deriving DecidableEq, Repr

/-- What happens to the accounts. -/
inductive ApiEvent where
  | create (id : ℕ)
  | generate (id : ℕ) (secret : Secret)
  | remove (id : ℕ)
  | delete (id : ℕ)

section
variable (digest : Bytes → String)

/-- `generate_api_token`. An id of more than four bytes raises, and what was saved is rolled back. -/
def Accounts.generate (accounts : Accounts) (id : ℕ) (secret : Secret) : Accounts :=
  if (accounts.users id).isSome ∧ id < 256 ^ 4 then
    { users := Function.update accounts.users id (some (some (digest secret.1))) }
  else accounts

def Accounts.after (accounts : Accounts) : ApiEvent → Accounts
  | .create id => { users := Function.update accounts.users id (some ((accounts.users id).getD none)) }
  | .generate id secret => accounts.generate digest id secret
  | .remove id => { users := Function.update accounts.users id ((accounts.users id).map fun _ => none) }
  | .delete id => { users := Function.update accounts.users id none }

def Accounts.run (accounts : Accounts) (events : List ApiEvent) : Accounts := events.foldl (Accounts.after digest) accounts

/-- `APIMiddleware`, for a request with a header or without one. -/
def authorize (accounts : Accounts) (header : Option (List Char)) (admin : Bool) : ApiAnswer :=
  match header with
  | none => .passed none
  | some header =>
    if header = [] then .passed none
    else
      match headerToken header with
      | none => .refused "Invalid authorization header" 400
      | some text =>
        if admin then .refused "Admin inaccessible" 403
        else
          match readToken text with
          | none => .refused "Invalid token" 401
          | some (id, secret) =>
            match accounts.users id with
            | none => .refused "Invalid token" 401
            | some apiToken =>
              if apiToken.getD "" = "" then .refused "Invalid token" 401
              else if some (digest secret) = apiToken then .passed (some id)
              else .refused "Invalid token" 401

end

/-! ## Reading a token back -/

section
variable {id : ℕ} {secret : Secret} {text header : List Char} {bytes : Bytes}

theorem length_payload : (pack id ++ secret.1).length = 36 := by
  rw [List.length_append, secret.2]
  rfl

theorem length_token : (token id secret).length = 48 := by
  rw [token, Base64.length_encode (by rw [length_payload]; decide), length_payload]

theorem readToken_token (hid : id < 256 ^ 4) : readToken (token id secret) = some (id, secret.1) := by
  have hpack : (pack id).length = 4 := rfl
  rw [readToken, token, Base64.decode_encode (by rw [length_payload]; decide), Option.map_some,
    List.take_left' hpack, List.drop_left' hpack, Bridge.number_pack hid]

theorem number_lt (h : bytes.length = 4) : number bytes < 256 ^ 4 := by
  obtain ⟨a, b, c, d, rfl⟩ := Bridge.length_four h
  have ha := a.toNat_lt
  have hb := b.toNat_lt
  have hc := c.toNat_lt
  have hd := d.toNat_lt
  simp only [number, List.foldl_cons, List.foldl_nil]
  omega

/-- Whatever forty-eight characters of the alphabet say is a token. -/
theorem exists_token (hlength : text.length = 48) (hchars : ∀ c ∈ text, (urlsafe.value c).isSome = true) :
    ∃ id secret, id < 256 ^ 4 ∧ text = token id secret := by
  obtain ⟨bytes, hbytes, hsize⟩ := Base64.exists_decode hchars (by omega)
  have hfirst : (bytes.take 4).length = 4 := by
    rw [List.length_take]
    omega
  refine ⟨number (bytes.take 4), ⟨bytes.drop 4, by rw [List.length_drop]; omega⟩, ?_, ?_⟩
  · exact number_lt hfirst
  · rw [token, Bridge.pack_number hfirst, List.take_append_drop, Base64.encode_decode hbytes]

/-- `Authorization: Bearer`, and the token. -/
def bearer (id : ℕ) (secret : Secret) : List Char := scheme ++ token id secret

theorem bearer_or : (header = bearer id secret ∨ header = bearer id secret ++ ['\n']) ↔
    (header = scheme ++ token id secret ∨ header = scheme ++ (token id secret ++ ['\n'])) := by
  unfold bearer
  rw [List.append_assoc scheme]

theorem headerToken_eq_some : headerToken header = some text ↔
    (∃ id secret, id < 256 ^ 4 ∧ text = token id secret) ∧
      (header = scheme ++ text ∨ header = scheme ++ (text ++ ['\n'])) := by
  unfold headerToken
  dsimp only
  constructor
  · intro h
    generalize hrest : (if (header.drop scheme.length).getLast? = some '\n' then
      (header.drop scheme.length).dropLast else header.drop scheme.length) = rest at h
    split at h
    · rename_i hall
      obtain rfl := Option.some.inj h
      obtain ⟨hstart, hlength, hchars⟩ := hall
      obtain ⟨after, rfl⟩ := List.isPrefixOf_iff_prefix.mp hstart
      rw [List.drop_left] at hrest
      refine ⟨exists_token hlength (List.all_eq_true.mp hchars), ?_⟩
      split at hrest
      · rename_i hline
        refine .inr (congrArg _ ?_)
        rw [← hrest]
        exact (List.dropLast_append_getLast? _ hline).symm
      · exact .inl (congrArg _ hrest)
    · cases h
  · rintro ⟨⟨id, secret, hid, rfl⟩, hheader⟩
    have hchars : ∀ c ∈ token id secret, (urlsafe.value c).isSome = true := fun c hc => Base64.value_of_mem_encode hc
    have hrest : (if (header.drop scheme.length).getLast? = some '\n' then
        (header.drop scheme.length).dropLast else header.drop scheme.length) = token id secret := by
      rcases hheader with rfl | rfl
      · rw [List.drop_left]
        split
        · rename_i hline
          have hvalue := hchars _ (List.mem_of_getLast? hline)
          exact absurd hvalue (by decide)
        · rfl
      · rw [List.drop_left, if_pos List.getLast?_concat]
        exact List.dropLast_concat
    have hstart : scheme.isPrefixOf header = true := by
      rcases hheader with rfl | rfl
      · exact List.isPrefixOf_iff_prefix.mpr (List.prefix_append _ _)
      · exact List.isPrefixOf_iff_prefix.mpr (List.prefix_append _ _)
    rw [hrest, if_pos ⟨hstart, length_token, List.all_eq_true.mpr hchars⟩]

end

/-! ## What the accounts were given -/

/-- The secret of the token each account was given last, unless it was removed. -/
abbrev Given := ℕ → Option (Option Secret)

def Given.after (given : Given) : ApiEvent → Given
  | .create id => Function.update given id (some ((given id).getD none))
  | .generate id secret =>
    if (given id).isSome ∧ id < 256 ^ 4 then Function.update given id (some (some secret)) else given
  | .remove id => Function.update given id ((given id).map fun _ => none)
  | .delete id => Function.update given id none

def Given.run (given : Given) (events : List ApiEvent) : Given := events.foldl Given.after given

section
variable {digest : Bytes → String} {accounts : Accounts} {given : Given} {events : List ApiEvent}

/-- The accounts keep the digest of what they were given. -/
def Keeps (digest : Bytes → String) (accounts : Accounts) (given : Given) : Prop :=
  ∀ id, accounts.users id = (given id).map fun secret => secret.map fun s => digest s.1

theorem Keeps.after (h : Keeps digest accounts given) (e : ApiEvent) :
    Keeps digest (accounts.after digest e) (given.after e) := by
  intro k
  cases e with
  | create id =>
      by_cases hk : k = id
      · subst hk
        simp only [Accounts.after, Given.after, Function.update_self, h k]
        cases given k with
        | none => rfl
        | some secret => rfl
      · simp only [Accounts.after, Given.after, Function.update_of_ne hk, h k]
  | generate id secret =>
      have hsome : (accounts.users id).isSome = (given id).isSome := by rw [h id, Option.isSome_map]
      simp only [Accounts.after, Accounts.generate, Given.after, hsome]
      split
      · by_cases hk : k = id
        · subst hk
          simp only [Function.update_self, Option.map_some]
        · simp only [Function.update_of_ne hk, h k]
      · exact h k
  | remove id =>
      by_cases hk : k = id
      · subst hk
        simp only [Accounts.after, Given.after, Function.update_self, h k, Option.map_map]
        rfl
      · simp only [Accounts.after, Given.after, Function.update_of_ne hk, h k]
  | delete id =>
      by_cases hk : k = id
      · subst hk
        simp only [Accounts.after, Given.after, Function.update_self, Option.map_none]
      · simp only [Accounts.after, Given.after, Function.update_of_ne hk, h k]

theorem Keeps.run (h : Keeps digest accounts given) : Keeps digest (accounts.run digest events) (given.run events) := by
  induction events generalizing accounts given with
  | nil => exact h
  | cons e events ih => exact ih (h.after e)

/-- Nobody has a token whose id does not fit. -/
theorem Given.run_fits {id : ℕ} {secret : Secret} (hgiven : ∀ id secret, given id = some (some secret) → id < 256 ^ 4)
    (h : given.run events id = some (some secret)) : id < 256 ^ 4 := by
  induction events generalizing given with
  | nil => exact hgiven id secret h
  | cons e events ih =>
      refine ih (fun k s hk => ?_) h
      cases e with
      | create i =>
          by_cases hki : k = i
          · subst hki
            simp only [Given.after, Function.update_self, Option.some.injEq] at hk
            cases hold : given k with
            | none => simp [hold] at hk
            | some old =>
                rw [hold] at hk
                exact hgiven k s (hold.trans (congrArg some hk))
          · exact hgiven k s (by simpa only [Given.after, Function.update_of_ne hki] using hk)
      | generate i new =>
          simp only [Given.after] at hk
          split at hk
          · rename_i hfits
            by_cases hki : k = i
            · exact hki ▸ hfits.2
            · exact hgiven k s (by simpa only [Function.update_of_ne hki] using hk)
          · exact hgiven k s hk
      | remove i =>
          by_cases hki : k = i
          · subst hki
            simp [Given.after] at hk
          · exact hgiven k s (by simpa only [Given.after, Function.update_of_ne hki] using hk)
      | delete i =>
          by_cases hki : k = i
          · subst hki
            simp [Given.after] at hk
          · exact hgiven k s (by simpa only [Given.after, Function.update_of_ne hki] using hk)

/-- **A request goes on as an account exactly when it carries the token the account was given last.** Whatever tokens
were generated and removed, a header is accepted as an account if and only if it is the token that was made last, and
not removed since, or says a secret of the same digest; and never on the pages of the administration. -/
theorem token_accepted (hdigest : ∀ secret : Secret, digest secret.1 ≠ "") (events : List ApiEvent) (header : List Char) (id : ℕ)
    (admin : Bool) :
    authorize digest (({} : Accounts).run digest events) (some header) admin = .passed (some id) ↔
      admin = false ∧ ∃ secret secret' : Secret, Given.run (fun _ => none) events id = some (some secret) ∧
        digest secret'.1 = digest secret.1 ∧ (header = bearer id secret' ∨ header = bearer id secret' ++ ['\n']) := by
  have hkeeps : Keeps digest (({} : Accounts).run digest events) (Given.run (fun _ => none) events) :=
    Keeps.run fun _ => rfl
  generalize hgiven : Given.run (fun _ => none) events = given at hkeeps
  generalize Accounts.run digest {} events = accounts at hkeeps
  constructor
  · intro h
    simp only [authorize] at h
    split at h
    · cases h
    · cases htext : headerToken header with
      | none =>
          rw [htext] at h
          cases h
      | some text =>
          obtain ⟨⟨id', secret', hid', rfl⟩, hheader⟩ := headerToken_eq_some.mp htext
          simp only [htext, readToken_token hid'] at h
          cases admin with
          | true => cases h
          | false =>
              rw [if_neg (by simp)] at h
              cases huser : accounts.users id' with
              | none =>
                  rw [huser] at h
                  cases h
              | some apiToken =>
                  simp only [huser] at h
                  split at h
                  · cases h
                  · split at h
                    · next hsame =>
                      have hsame' : id' = id := by simpa only [ApiAnswer.passed.injEq, Option.some.injEq] using h
                      subst hsame'
                      rw [hkeeps id'] at huser
                      obtain ⟨held, hheld, hmap⟩ := Option.map_eq_some_iff.mp huser
                      rw [← hsame] at hmap
                      obtain ⟨secret, rfl, hdigest'⟩ := Option.map_eq_some_iff.mp hmap
                      exact ⟨rfl, secret, secret', hheld, hdigest'.symm, bearer_or.mpr hheader⟩
                    · cases h
  · rintro ⟨rfl, secret, secret', hheld, hsame, hheader⟩
    rw [← hgiven] at hheld
    have hid : id < 256 ^ 4 := Given.run_fits (by simp) hheld
    rw [hgiven] at hheld
    have htext : headerToken header = some (token id secret') :=
      headerToken_eq_some.mpr ⟨⟨id, secret', hid, rfl⟩, bearer_or.mp hheader⟩
    have huser : accounts.users id = some (some (digest secret.1)) := by rw [hkeeps id, hheld]; rfl
    have hnonempty : header ≠ [] := by
      rintro rfl
      rcases hheader with h | h
      · exact List.cons_ne_nil _ _ h.symm
      · exact List.cons_ne_nil _ _ h.symm
    simp only [authorize, if_neg hnonempty, htext, readToken_token hid, huser, Option.getD_some, hdigest, hsame,
      if_false, if_true, Bool.false_eq_true]

end

/-- The hexadecimal digits of bytes, as long for a secret as a digest. -/
def hexadecimal (bytes : Bytes) : String :=
  String.ofList (bytes.flatMap fun byte => [(byte.toNat / 16).digitChar, (byte.toNat % 16).digitChar])

theorem hexadecimal_ne (secret : Secret) : hexadecimal secret.1 ≠ "" := by
  obtain ⟨bytes, hlength⟩ := secret
  intro h
  cases bytes with
  | nil => simp at hlength
  | cons byte bytes => simpa [hexadecimal] using congrArg String.toList h

/-- The same byte thirty-two times. -/
def repeated (byte : UInt8) : Secret := ⟨List.replicate 32 byte, List.length_replicate⟩

/-- The second of two tokens that an account made. -/
theorem token_accepted_second :
    authorize hexadecimal (({} : Accounts).run hexadecimal
      [.create 7, .generate 7 (repeated 1), .generate 7 (repeated 2)]) (some (bearer 7 (repeated 2))) false =
      .passed (some 7) := by
  refine (token_accepted hexadecimal_ne _ _ _ _).mpr ⟨rfl, repeated 2, repeated 2, ?_, rfl, .inl rfl⟩
  simp [Given.run, Given.after]

end Login
end CpcJudge
