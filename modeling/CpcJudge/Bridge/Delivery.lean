import CpcJudge.Bridge.Connection

/-!
# `Bridge.Delivery` — what arrives, and when reading ends

The loops over a size and over the line of a proxy end when the peer hangs up. The one over the body of a packet takes
an empty read for a read, and goes on for ever (`hangs_up`). What was sent is delivered, unless the bytes that arrive
with the end of the line stop inside the size of a packet that is not the last (`packets_delivered`).
-/

namespace CpcJudge
namespace Bridge

open Txn

variable {wire : Wire} {h t : PacketHandler} {left rest bytes : Bytes} {texts delivered : List String} {n fuel k m line got : ℕ}

/-! ## The end of a connection -/

/-- The stream ends in the body of a packet. -/
def BodyCut (bytes : Bytes) : Prop :=
  4 ≤ bytes.length ∧ number (bytes.take 4) ≤ MAX_ALLOWED_PACKET_SIZE ∧ bytes.length - 4 < number (bytes.take 4)

instance : Decidable (BodyCut bytes) := inferInstanceAs (Decidable (_ ∧ _))

/-- The packets are read up to `left`, `m` bytes of which arrived with the line of a proxy. -/
inductive Passes (wire : Wire) : ℕ → Bytes → ℕ → Bytes → Prop where
  | here {k : ℕ} {bytes : Bytes} : Passes wire k bytes k bytes
  | after {k m : ℕ} {bytes rest left : Bytes} {texts : List String} :
      wire.packet bytes = (texts, .ok rest) → k = 0 ∨ 4 ≤ k →
      Passes wire (k - (bytes.length - rest.length)) rest m left → Passes wire k bytes m left

/-- The packets of the connection start with `bytes`. -/
inductive Opens (wire : Wire) (h : PacketHandler) : ℕ → Bytes → Prop where
  | plain : ¬ h.Proxied wire → Opens wire h 0 h.feed.left
  | line {line k : ℕ} {found : Option (Address × Address)} :
      h.Proxied wire → lineLength h.feed.left = some line → past h.feed line 0 = some k →
      parseProxyProtocol (h.feed.left.take (line - 2)) = .ok found → Opens wire h k (h.feed.left.drop line)

/-- The handler comes to a packet whose body the stream ends in. -/
def Stuck (wire : Wire) (h : PacketHandler) : Prop :=
  ∃ k bytes m left, Opens wire h k bytes ∧ Passes wire k bytes m left ∧ BodyCut left

/-- What a handler stops with at a packet. -/
def Ending (wire : Wire) (m : ℕ) (left : Bytes) (stop : Option Stop) : Prop :=
  (wire.packet left).2 = .error stop ∨ (∃ rest, (wire.packet left).2 = .ok rest) ∧ 0 < m ∧ m < 4 ∧ stop = some .struct

/-- Something that arrives is refused with an exception: the line of a proxy, or a packet. -/
inductive Offends (wire : Wire) (h : PacketHandler) (stop : Stop) : Prop where
  | line {line k : ℕ} :
      h.Proxied wire → lineLength h.feed.left = some line → past h.feed line 0 = some k →
      parseProxyProtocol (h.feed.left.take (line - 2)) = .error stop → Offends wire h stop
  | packet {k m : ℕ} {bytes left : Bytes} :
      Opens wire h k bytes → Passes wire k bytes m left → Ending wire m left (some stop) → Offends wire h stop

/-- With enough fuel `handle` stops. -/
def Terminates (wire : Wire) (h : PacketHandler) : Prop :=
  ∃ N, ∀ fuel, N ≤ fuel → ∃ stop t, handle wire fuel h = .error (some stop) t

/-- With enough fuel `handle` stops with a `Disconnect`. -/
def Disconnects (wire : Wire) (h : PacketHandler) : Prop :=
  ∃ N, ∀ fuel, N ≤ fuel → ∃ t, handle wire fuel h = .error (some .disconnect) t

/-- A packet is waited for, for ever, when its body does not arrive. -/
theorem packet_stuck : (wire.packet bytes).2 = .error none ↔ BodyCut bytes := by
  unfold Wire.packet BodyCut
  by_cases hfour : bytes.length < 4
  · rw [if_pos hfour]
    constructor
    · intro hno
      cases hno
    · rintro ⟨hlength, -⟩
      exact absurd hfour (not_lt.mpr hlength)
  rw [if_neg hfour]
  unfold Wire.sized
  by_cases hlarge : MAX_ALLOWED_PACKET_SIZE < number (bytes.take 4)
  · rw [if_pos hlarge]
    constructor
    · intro hno
      cases hno
    · rintro ⟨-, hsmall, -⟩
      exact absurd hlarge (not_lt.mpr hsmall)
  rw [if_neg hlarge, List.length_drop]
  by_cases hcut : bytes.length - 4 < number (bytes.take 4)
  · rw [if_pos hcut]
    exact ⟨fun _ => ⟨not_lt.mp hfour, not_lt.mp hlarge, hcut⟩, fun _ => rfl⟩
  · rw [if_neg hcut]
    constructor
    · intro hno
      cases haccept : (wire.accept ((bytes.drop 4).take (number (bytes.take 4)))).2 with
      | none =>
          rw [haccept] at hno
          cases hno
      | some stop =>
          rw [haccept] at hno
          cases hno
    · rintro ⟨-, -, hless⟩
      exact absurd hless hcut

theorem reads_ending {stop : Option Stop} :
    (∃ texts, Reads wire k bytes texts stop) ↔ ∃ m left, Passes wire k bytes m left ∧ Ending wire m left stop := by
  constructor
  · rintro ⟨texts, hreads⟩
    induction hreads with
    | @stops k bytes texts stop hpacket => exact ⟨k, bytes, .here, .inl (congrArg Prod.snd hpacket)⟩
    | @torn k bytes rest texts hpacket hpos hfew =>
        exact ⟨k, bytes, .here, .inr ⟨⟨rest, congrArg Prod.snd hpacket⟩, hpos, hfew, rfl⟩⟩
    | next hpacket hk _ ih =>
        obtain ⟨m, left, hpasses, hending⟩ := ih
        exact ⟨m, left, .after hpacket hk hpasses, hending⟩
  · rintro ⟨m, left, hpasses, hending⟩
    induction hpasses with
    | @here k bytes =>
        rcases hending with herror | ⟨⟨rest, hok⟩, hpos, hfew, rfl⟩
        · exact ⟨(wire.packet bytes).1, .stops (Prod.ext rfl herror)⟩
        · exact ⟨(wire.packet bytes).1, .torn (Prod.ext rfl hok) hpos hfew⟩
    | after hpacket hk _ ih =>
        obtain ⟨later, hlater⟩ := ih hending
        exact ⟨_, .next hpacket hk hlater⟩

theorem ending_stuck : Ending wire m left none ↔ BodyCut left := by
  constructor
  · rintro (herror | ⟨-, -, -, hno⟩)
    · exact packet_stuck.mp herror
    · cases hno
  · intro hcut
    exact .inl (packet_stuck.mpr hcut)

/-- A handler that reads for ever waits for a body. -/
theorem session_stuck : (∃ texts, Session wire h texts none) ↔ Stuck wire h := by
  constructor
  · rintro ⟨texts, hsession⟩
    cases hsession with
    | plain hplain hreads =>
        obtain ⟨m, left, hpasses, hending⟩ := reads_ending.mp ⟨_, hreads⟩
        exact ⟨_, _, m, left, .plain hplain, hpasses, ending_stuck.mp hending⟩
    | line hproxied hline hpast hparse hreads =>
        obtain ⟨m, left, hpasses, hending⟩ := reads_ending.mp ⟨_, hreads⟩
        exact ⟨_, _, m, left, .line hproxied hline hpast hparse, hpasses, ending_stuck.mp hending⟩
  · rintro ⟨k, bytes, m, left, hopens, hpasses, hcut⟩
    obtain ⟨texts, hreads⟩ := reads_ending.mpr ⟨m, left, hpasses, ending_stuck.mpr hcut⟩
    cases hopens with
    | plain hplain => exact ⟨texts, .plain hplain hreads⟩
    | line hproxied hline hpast hparse => exact ⟨texts, .line hproxied hline hpast hparse hreads⟩

/-- A handler that stops with anything but a `Disconnect` was sent something it refuses. -/
theorem session_offends {stop : Stop} (hstop : stop ≠ .disconnect) :
    (∃ texts, Session wire h texts (some stop)) ↔ Offends wire h stop := by
  constructor
  · rintro ⟨texts, hsession⟩
    cases hsession with
    | noLine => exact absurd rfl hstop
    | badLine hproxied hline hpast hparse => exact .line hproxied hline hpast hparse
    | plain hplain hreads =>
        obtain ⟨m, left, hpasses, hending⟩ := reads_ending.mp ⟨_, hreads⟩
        exact .packet (.plain hplain) hpasses hending
    | line hproxied hline hpast hparse hreads =>
        obtain ⟨m, left, hpasses, hending⟩ := reads_ending.mp ⟨_, hreads⟩
        exact .packet (.line hproxied hline hpast hparse) hpasses hending
  · intro hoffends
    cases hoffends with
    | line hproxied hline hpast hparse => exact ⟨[], .badLine hproxied hline hpast hparse⟩
    | packet hopens hpasses hending =>
        obtain ⟨texts, hreads⟩ := reads_ending.mpr ⟨_, _, hpasses, hending⟩
        cases hopens with
        | plain hplain => exact ⟨texts, .plain hplain hreads⟩
        | line hproxied hline hpast hparse => exact ⟨texts, .line hproxied hline hpast hparse hreads⟩

/-- `handle` never returns. -/
theorem handle_error (wire : Wire) (fuel : ℕ) (h : PacketHandler) : ∃ e t, handle wire fuel h = .error e t := by
  obtain ⟨texts, stop, hsession⟩ := Session.total wire h
  cases hrun : handle wire fuel h with
  | ok _ t => exact ((handle_spec hsession fuel).ok rfl hrun).elim
  | error e t => exact ⟨e, t, rfl⟩

/-- With fuel for the stream, `handle` stops as the stream says. -/
theorem Session.halts {stop : Stop} (hsession : Session wire h texts (some stop)) (hfuel : h.feed.left.length + 4 < fuel) :
    ∃ t, handle wire fuel h = .error (some stop) t ∧ t.delivered = h.delivered ++ texts := by
  obtain ⟨e, t, hrun⟩ := handle_error wire fuel h
  rcases (handle_spec hsession fuel).error rfl hrun with ⟨rfl, hdelivered⟩ | ⟨_, hno | hshort⟩
  · exact ⟨t, hrun, hdelivered⟩
  · cases hno
  · exact absurd hfuel (not_lt.mpr hshort)

/-- A handler that waits for a body never stops. -/
theorem Session.goes_on (hsession : Session wire h texts none) (fuel : ℕ) : ∃ t, handle wire fuel h = .error none t := by
  obtain ⟨e, t, hrun⟩ := handle_error wire fuel h
  rcases (handle_spec hsession fuel).error rfl hrun with ⟨rfl, _⟩ | ⟨rfl, _⟩
  · exact ⟨t, hrun⟩
  · exact ⟨t, hrun⟩

theorem Session.terminates {stop : Stop} (hsession : Session wire h texts (some stop)) : Terminates wire h := by
  refine ⟨h.feed.left.length + 5, fun fuel hfuel => ?_⟩
  obtain ⟨t, hrun, _⟩ := hsession.halts (Nat.lt_of_succ_le hfuel)
  exact ⟨stop, t, hrun⟩

theorem Stuck.not_terminates (hstuck : Stuck wire h) : ¬ Terminates wire h := by
  rintro ⟨N, hstops⟩
  obtain ⟨texts, hsession⟩ := session_stuck.mpr hstuck
  obtain ⟨stop, t, hrun⟩ := hstops N le_rfl
  obtain ⟨t', hrun'⟩ := hsession.goes_on N
  rw [hrun] at hrun'
  cases hrun'

theorem Disconnects.terminates (hdisconnects : Disconnects wire h) : Terminates wire h := by
  obtain ⟨N, hstops⟩ := hdisconnects
  exact ⟨N, fun fuel hfuel => ⟨.disconnect, hstops fuel hfuel⟩⟩

theorem Offends.not_disconnects {stop : Stop} (hstop : stop ≠ .disconnect) (hoffends : Offends wire h stop) :
    ¬ Disconnects wire h := by
  rintro ⟨N, hstops⟩
  obtain ⟨texts, hsession⟩ := (session_offends hstop).mpr hoffends
  obtain ⟨t, hrun⟩ := hstops (N + h.feed.left.length + 5) (by omega)
  obtain ⟨t', hrun', _⟩ := hsession.halts (show h.feed.left.length + 4 < N + h.feed.left.length + 5 by omega)
  rw [hrun] at hrun'
  cases hrun'
  exact hstop rfl

/-- Reading ends when the peer hangs up anywhere but in the body of a packet, and with a `Disconnect` where nothing that
arrived was refused. -/
theorem hangs_up (wire : Wire) (h : PacketHandler) : (Terminates wire h ↔ ¬ Stuck wire h) ∧
    (Disconnects wire h ↔ ¬ Stuck wire h ∧ ∀ stop, stop ≠ .disconnect → ¬ Offends wire h stop) := by
  obtain ⟨texts, stop, hsession⟩ := Session.total wire h
  have hgoes : ¬ Stuck wire h → ∃ stop', stop = some stop' := by
    intro hfree
    cases stop with
    | none => exact absurd (session_stuck.mp ⟨texts, hsession⟩) hfree
    | some stop => exact ⟨stop, rfl⟩
  refine ⟨⟨fun hends hstuck => hstuck.not_terminates hends, fun hfree => ?_⟩, ⟨fun hends => ⟨fun hstuck => ?_, ?_⟩, ?_⟩⟩
  · obtain ⟨stop, rfl⟩ := hgoes hfree
    exact hsession.terminates
  · exact hstuck.not_terminates hends.terminates
  · intro stop hstop hoffends
    exact hoffends.not_disconnects hstop hends
  · rintro ⟨hfree, hnone⟩
    obtain ⟨stop, rfl⟩ := hgoes hfree
    by_cases hstop : stop = .disconnect
    · subst hstop
      refine ⟨h.feed.left.length + 5, fun fuel hfuel => ?_⟩
      obtain ⟨t, hrun, _⟩ := hsession.halts (Nat.lt_of_succ_le hfuel)
      exact ⟨t, hrun⟩
    · exact absurd ((session_offends hstop).mp ⟨texts, hsession⟩) (hnone stop hstop)

/-- `zlib`, for the text of two braces. -/
def zlibOfBraces : Bytes := [120, 156, 171, 174, 5, 0, 1, 117, 0, 249]

/-- A bridge behind a proxy. -/
def bridge : Wire where
  compress data := if data = [123, 125] then zlibOfBraces else data
  decompress bytes := if bytes = zlibOfBraces then some [123, 125] else none
  proxies host := host == "10.0.0.1"

/-- A connection that comes from the proxy. -/
def comingFrom (bytes : Bytes) (cuts : ℕ → ℕ) : PacketHandler :=
  { feed := ⟨bytes, cuts⟩, client := ⟨"10.0.0.1", "5000", []⟩, server := ⟨"0.0.0.0", "9999", []⟩ }

/-- The peer hangs up after the first byte of a body of five: the loop over the body reads nothing, for ever. -/
theorem hangs_in_body : ¬ Terminates bridge (comingFrom [0, 0, 0, 5, 1] fun _ => 0) := by
  apply Stuck.not_terminates
  refine ⟨0, _, 0, _, .plain (by decide), .here, ?_⟩
  show BodyCut [0, 0, 0, 5, 1]
  decide

/-! ## What is sent -/

/-- What `send` puts on the wire for a list of texts. -/
def frames (wire : Wire) (payloads : List String) : Bytes := payloads.flatMap (frame wire)

/-- A text that `zlib` gives back, in a packet that is not too large, and that `on_packet` takes. -/
structure Fits (wire : Wire) (text : String) : Prop where
  inverts : wire.decompress (wire.compress (encode text)) = some (encode text)
  small : (wire.compress (encode text)).length ≤ MAX_ALLOWED_PACKET_SIZE
  taken : wire.onPacket text = none

/-- The line of a proxy the settings know, with its end: the longest one has 107 bytes. -/
structure ProxyLine (wire : Wire) (h : PacketHandler) (header : Bytes) : Prop where
  known : wire.proxies h.client.host = true
  starts : header.take 4 = [80, 82, 79, 88]
  ends : lineLength header = some header.length
  short : header.length ≤ 107
  parses : ∃ found, parseProxyProtocol (header.take (header.length - 2)) = .ok found

/-- With enough fuel the handler delivers the texts, and stops. -/
def Delivers (wire : Wire) (h : PacketHandler) (payloads : List String) : Prop :=
  ∃ N, ∀ fuel, N ≤ fuel → ∃ stop t, handle wire fuel h = .error (some stop) t ∧ t.delivered = payloads

/-- `k` bytes of the packets end inside the size of a packet that is not the last. -/
def Torn (wire : Wire) (k : ℕ) (payloads : List String) : Prop :=
  ∃ before text after, payloads = before ++ text :: after ∧ after ≠ [] ∧
    (frames wire before).length < k ∧ k < (frames wire before).length + 4

theorem decode_encode (text : String) : decode (encode text) = some text := by
  unfold decode encode String.fromUTF8?
  rw [Array.toArray_toList]
  exact dif_pos text.isValidUTF8

theorem length_pack (n : ℕ) : (pack n).length = 4 := rfl

theorem length_frame (text : String) : (frame wire text).length = 4 + (wire.compress (encode text)).length := by
  rw [frame, List.length_append, length_pack]

/-- The packet of a text is read as that text. -/
theorem packet_frame {text : String} (hfits : Fits wire text) (rest : Bytes) :
    wire.packet (frame wire text ++ rest) = ([text], .ok rest) := by
  have hsmall := hfits.small
  have hnumber : number (pack (wire.compress (encode text)).length) = (wire.compress (encode text)).length :=
    number_pack (hsmall.trans_lt (by decide))
  have htake : (frame wire text ++ rest).take 4 = pack (wire.compress (encode text)).length := by
    rw [frame, List.append_assoc, List.take_left' (length_pack _)]
  have hdrop : (frame wire text ++ rest).drop 4 = wire.compress (encode text) ++ rest := by
    rw [frame, List.append_assoc, List.drop_left' (length_pack _)]
  have hlength : ¬ (frame wire text ++ rest).length < 4 := by
    rw [List.length_append, length_frame]
    omega
  have haccept : wire.accept (wire.compress (encode text)) = ([text], none) := by
    unfold Wire.accept
    rw [hfits.inverts]
    dsimp only
    rw [decode_encode]
    dsimp only
    rw [hfits.taken]
  unfold Wire.packet Wire.sized
  rw [if_neg hlength, htake, hdrop, hnumber, if_neg (not_lt.mpr hsmall), if_neg, List.take_left' rfl, List.drop_left' rfl,
    haccept]
  · rfl
  · rw [List.length_append]
    omega

theorem packet_nil : wire.packet [] = ([], .error (some .disconnect)) := rfl

/-- Packets that arrive without a break inside a size are read one after another. -/
theorem reads_frames {payloads : List String} (hfits : ∀ text ∈ payloads, Fits wire text) (k : ℕ)
    (hwhole : ¬ Torn wire k payloads) : ∃ stop, Reads wire k (frames wire payloads) payloads (some stop) := by
  induction payloads generalizing k with
  | nil => exact ⟨.disconnect, .stops packet_nil⟩
  | cons text payloads ih =>
      have hpacket : wire.packet (frames wire (text :: payloads)) = ([text], .ok (frames wire payloads)) :=
        packet_frame (hfits text List.mem_cons_self) _
      by_cases hfew : 0 < k ∧ k < 4
      · -- the packet is the last: the handler crashes after it
        have hlast : payloads = [] := by
          by_contra hmore
          exact hwhole ⟨[], text, payloads, rfl, hmore, hfew.1, by simpa [frames] using hfew.2⟩
        subst hlast
        exact ⟨.struct, .torn hpacket hfew.1 hfew.2⟩
      · have hlater : ¬ Torn wire (k - (frame wire text).length) payloads := by
          rintro ⟨before, text', after, rfl, hmore, hover, hunder⟩
          refine hwhole ⟨text :: before, text', after, rfl, hmore, ?_, ?_⟩
          · simp only [frames, List.flatMap_cons, List.length_append] at hover hunder ⊢
            omega
          · simp only [frames, List.flatMap_cons, List.length_append] at hover hunder ⊢
            omega
        obtain ⟨stop, hreads⟩ := ih (fun text htext => hfits text (List.mem_cons_of_mem _ htext)) _ hlater
        refine ⟨stop, .next hpacket (by omega) ?_⟩
        have hlength : (frames wire (text :: payloads)).length - (frames wire payloads).length = (frame wire text).length := by
          simp [frames]
        rw [hlength]
        exact hreads

/-- A break inside the size of a packet that is not the last loses the packets after it. -/
theorem reads_torn {before after : List String} {text : String} (hfits : ∀ text' ∈ before ++ text :: after, Fits wire text')
    (hover : (frames wire before).length < k) (hunder : k < (frames wire before).length + 4) :
    Reads wire k (frames wire (before ++ text :: after)) (before ++ [text]) (some .struct) := by
  induction before generalizing k with
  | nil =>
      have hpacket : wire.packet (frames wire (text :: after)) = ([text], .ok (frames wire after)) :=
        packet_frame (hfits text List.mem_cons_self) _
      exact .torn hpacket hover (by simpa [frames] using hunder)
  | cons first before ih =>
      have hpacket : wire.packet (frames wire (first :: (before ++ text :: after))) =
          ([first], .ok (frames wire (before ++ text :: after))) := packet_frame (hfits first List.mem_cons_self) _
      have hframe : (frame wire first).length = _ := length_frame first
      have hlength : (frames wire (first :: before)).length = (frame wire first).length + (frames wire before).length := by
        simp [frames]
      rw [hlength] at hover hunder
      have hsub : (frames wire (first :: (before ++ text :: after))).length - (frames wire (before ++ text :: after)).length =
          (frame wire first).length := by simp [frames]
      have hlater := ih (k := k - (frame wire first).length)
        (fun text' htext => hfits text' (List.mem_cons_of_mem _ htext)) (by omega) (by omega)
      rw [← hsub] at hlater
      have hreads : Reads wire k (frames wire (first :: (before ++ text :: after))) ([first] ++ (before ++ [text]))
          (some .struct) := .next hpacket (by omega) hlater
      exact hreads

theorem Torn.not_nil (htorn : Torn wire k []) : False := by
  obtain ⟨before, text, after, hnil, -⟩ := htorn
  cases before with
  | nil => cases hnil
  | cons => cases hnil

theorem Torn.pos {payloads : List String} (htorn : Torn wire k payloads) : 0 < k := by
  obtain ⟨before, text, after, -, -, hover, -⟩ := htorn
  exact (Nat.zero_le _).trans_lt hover

theorem Torn.lt {payloads : List String} (htorn : Torn wire k payloads) : k < (frames wire payloads).length := by
  obtain ⟨before, text, after, rfl, -, -, hunder⟩ := htorn
  have hframe : (frame wire text).length = _ := length_frame text
  simp only [frames, List.flatMap_append, List.flatMap_cons, List.length_append] at hunder ⊢
  omega

/-- What the handler delivers, whatever stops it. -/
theorem Session.delivers {stop : Stop} {payloads : List String} (hsession : Session wire h texts (some stop))
    (hnew : h.delivered = []) : Delivers wire h payloads ↔ texts = payloads := by
  constructor
  · rintro ⟨N, hdelivers⟩
    obtain ⟨stop', t, hrun, hdelivered⟩ := hdelivers (N + h.feed.left.length + 5) (by omega)
    obtain ⟨t', hrun', hdelivered'⟩ := hsession.halts (show h.feed.left.length + 4 < N + h.feed.left.length + 5 by omega)
    rw [hrun] at hrun'
    cases hrun'
    rw [hnew, List.nil_append] at hdelivered'
    exact hdelivered'.symm.trans hdelivered
  · rintro rfl
    refine ⟨h.feed.left.length + 5, fun fuel hfuel => ?_⟩
    obtain ⟨t, hrun, hdelivered⟩ := hsession.halts (Nat.lt_of_succ_le hfuel)
    rw [hnew, List.nil_append] at hdelivered
    exact ⟨stop, t, hrun, hdelivered⟩

/-- A packet within the limit does not look like the line of a proxy. -/
theorem not_proxied {payloads : List String} (hfits : ∀ text ∈ payloads, Fits wire text)
    (hstream : h.feed.left = frames wire payloads) : ¬ h.Proxied wire := by
  rintro ⟨-, hprox⟩
  rw [hstream] at hprox
  cases payloads with
  | nil => cases hprox
  | cons text payloads =>
      have hsmall := (hfits text List.mem_cons_self).small
      have hpack : (frames wire (text :: payloads)).take 4 = pack (wire.compress (encode text)).length := by
        rw [frames, List.flatMap_cons, frame, List.append_assoc, List.take_left' (length_pack _)]
      have hnumber : number (pack (wire.compress (encode text)).length) = (wire.compress (encode text)).length :=
        number_pack (hsmall.trans_lt (by decide))
      rw [← hpack, hprox] at hnumber
      rw [← hnumber] at hsmall
      exact absurd hsmall (by decide)

/-- The end of the first line does not depend on what comes after it. -/
theorem lineLength_append (hline : lineLength bytes = some line) (rest : Bytes) : lineLength (bytes ++ rest) = some line := by
  induction bytes generalizing line with
  | nil => cases hline
  | cons byte bytes ih =>
      rw [List.cons_append]
      unfold lineLength at hline ⊢
      have hhead : bytes.head? = some 10 → (bytes ++ rest).head? = some 10 := by
        intro hten
        rw [List.head?_append, hten]
        rfl
      by_cases hend : byte = 13 ∧ bytes.head? = some 10
      · rw [if_pos hend] at hline
        rw [if_pos ⟨hend.1, hhead hend.2⟩]
        exact hline
      · rw [if_neg hend] at hline
        obtain ⟨shorter, hshorter, rfl⟩ := Option.map_eq_some_iff.mp hline
        have hsome : bytes ≠ [] := by
          rintro rfl
          cases hshorter
        rw [if_neg, ih hshorter]
        · rfl
        · rw [List.head?_append_of_ne_nil _ hsome]
          exact hend

/-- A line that is not too long arrives. -/
theorem past_arrives (feed : Feed UInt8) (got : ℕ) (hshort : line ≤ 107) (hthere : line ≤ got + feed.left.length) :
    ∃ k, past feed line got = some k := by
  induction hlength : feed.left.length using Nat.strong_induction_on generalizing feed got with
  | _ length ih =>
      rw [past_step]
      by_cases harrived : line ≤ got
      · exact ⟨_, if_pos harrived⟩
      have hleft : feed.left ≠ [] := by
        intro hnil
        rw [hnil, List.length_nil] at hthere
        exact harrived hthere
      have hshorter : (feed.next (if got < 4 then 4 - got else 107)).left.length < feed.left.length :=
        length_next_lt asked_pos hleft
      rw [if_neg harrived, if_neg (by omega), if_neg hleft]
      refine ih _ (hlength ▸ hshorter) _ _ ?_ rfl
      show line ≤ got + _ + (feed.left.drop _).length
      rw [List.length_drop]
      have hle : feed.size (if got < 4 then 4 - got else 107) ≤ feed.left.length := Feed.size_le_left
      omega

/-- Packets that come first. -/
theorem delivers_plain {payloads : List String} (hfits : ∀ text ∈ payloads, Fits wire text) (hnew : h.delivered = [])
    (hstream : h.feed.left = frames wire payloads) : Delivers wire h payloads := by
  obtain ⟨stop, hreads⟩ := reads_frames hfits 0 fun htorn => absurd htorn.pos (lt_irrefl _)
  rw [← hstream] at hreads
  exact (Session.delivers (.plain (not_proxied hfits hstream) hreads) hnew).mpr rfl

/-- Packets after the line of a proxy. -/
theorem delivers_line {payloads : List String} {header : Bytes} (hfits : ∀ text ∈ payloads, Fits wire text)
    (hnew : h.delivered = []) (hheader : ProxyLine wire h header) (hstream : h.feed.left = header ++ frames wire payloads)
    (hpast : past h.feed header.length 0 = some k) : Delivers wire h payloads ↔ ¬ Torn wire k payloads := by
  have hline : lineLength h.feed.left = some header.length := by
    rw [hstream]
    exact lineLength_append hheader.ends _
  have htwo := two_le_lineLength hline
  have hfour : 4 ≤ header.length := by
    have hlength : (header.take 4).length = 4 := by rw [hheader.starts]; rfl
    rw [List.length_take] at hlength
    omega
  have hproxied : h.Proxied wire := by
    refine ⟨hheader.known, ?_⟩
    rw [hstream, List.take_append_of_le_length hfour]
    exact hheader.starts
  obtain ⟨found, hparse⟩ := hheader.parses
  have hwords : parseProxyProtocol (h.feed.left.take (header.length - 2)) = .ok found := by
    rw [hstream, List.take_append_of_le_length (Nat.sub_le _ _)]
    exact hparse
  have hdrop : h.feed.left.drop header.length = frames wire payloads := by rw [hstream, List.drop_left' rfl]
  constructor
  · rintro hdelivers ⟨before, text, after, rfl, hmore, hover, hunder⟩
    have hreads := reads_torn hfits hover hunder
    rw [← hdrop] at hreads
    have hsame := (Session.delivers (.line hproxied hline hpast hwords hreads) hnew).mp hdelivers
    have hafter : [text] = text :: after := List.append_cancel_left hsame
    exact hmore (List.cons.inj hafter).2.symm
  · intro hwhole
    obtain ⟨stop, hreads⟩ := reads_frames hfits k hwhole
    rw [← hdrop] at hreads
    exact (Session.delivers (.line hproxied hline hpast hwords hreads) hnew).mpr rfl

/-- The handler delivers what was sent, in order and nothing else, unless a line comes first and what arrives with its end
stops inside the size of a packet that is not the last. -/
theorem packets_delivered (wire : Wire) (h : PacketHandler) (payloads : List String)
    (hfits : ∀ text ∈ payloads, Fits wire text) (hnew : h.delivered = []) :
    (h.feed.left = frames wire payloads → Delivers wire h payloads) ∧
    ∀ header, ProxyLine wire h header → h.feed.left = header ++ frames wire payloads →
      ∃ k, past h.feed header.length 0 = some k ∧ (Delivers wire h payloads ↔ ¬ Torn wire k payloads) := by
  refine ⟨delivers_plain hfits hnew, fun header hheader hstream => ?_⟩
  have hthere : header.length ≤ 0 + h.feed.left.length := by
    rw [hstream, List.length_append]
    omega
  obtain ⟨k, hpast⟩ := past_arrives h.feed 0 hheader.short hthere
  exact ⟨k, hpast, delivers_line hfits hnew hheader hstream hpast⟩

theorem fits_braces : Fits bridge "\x7b\x7d" where
  inverts := by decide +kernel
  small := by decide +kernel
  taken := rfl

/-- `PROXY UNKNOWN`. -/
def unknownLine : Bytes := [80, 82, 79, 88, 89, 32, 85, 78, 75, 78, 79, 87, 78, 13, 10]

theorem unknownLine_proxy (bytes : Bytes) (cuts : ℕ → ℕ) : ProxyLine bridge (comingFrom bytes cuts) unknownLine where
  known := beq_self_eq_true _
  starts := rfl
  ends := by decide +kernel
  short := by decide
  parses := ⟨none, by decide +kernel⟩

/-- Two packets after the line of a proxy. -/
def twoPackets : Bytes := unknownLine ++ frames bridge ["\x7b\x7d", "\x7b\x7d"]

theorem fits_twoPackets : ∀ text ∈ ["\x7b\x7d", "\x7b\x7d"], Fits bridge text := by
  intro text htext
  simp only [List.mem_cons, List.not_mem_nil, or_false, or_self] at htext
  rw [htext]
  exact fits_braces

/-- Everything arrives with the line. -/
theorem packets_delivered_whole : Delivers bridge (comingFrom twoPackets fun _ => 1000) ["\x7b\x7d", "\x7b\x7d"] := by
  obtain ⟨k, hpast, hdelivers⟩ := (packets_delivered bridge (comingFrom twoPackets fun _ => 1000) _ fits_twoPackets rfl).2
    unknownLine (unknownLine_proxy _ _) rfl
  have hk : past (comingFrom twoPackets fun _ => 1000).feed 15 0 = some 28 := by decide +kernel
  obtain rfl : k = 28 := Option.some.inj (hpast.symm.trans hk)
  refine hdelivers.mpr fun htorn => ?_
  have hlength : (frames bridge ["\x7b\x7d", "\x7b\x7d"]).length = 28 := by decide +kernel
  have hlt := htorn.lt
  rw [hlength] at hlt
  exact absurd hlt (lt_irrefl _)

/-- Two bytes of the first packet arrive with the line: the second packet is lost. -/
theorem packets_lost : ¬ Delivers bridge (comingFrom twoPackets fun read => if read = 1 then 12 else 1000)
    ["\x7b\x7d", "\x7b\x7d"] := by
  intro hdelivers
  have hpast : past (comingFrom twoPackets fun read => if read = 1 then 12 else 1000).feed 15 0 = some 2 := by decide +kernel
  refine (delivers_line fits_twoPackets rfl (unknownLine_proxy _ _) rfl hpast).mp hdelivers ?_
  exact ⟨[], "\x7b\x7d", ["\x7b\x7d"], rfl, by decide, by decide, by decide⟩

end Bridge
end CpcJudge
