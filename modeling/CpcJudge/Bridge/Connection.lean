import CpcJudge.Bridge.Framing

/-!
# `Bridge.Connection` — a whole connection

A connection is a stream of packets, or a line and then one (`Session`). What a handler does with it depends on the bytes
and, where a line comes first, on how many of them arrive with its end (`handle_spec`).
-/

namespace CpcJudge
namespace Bridge

open Txn

variable {wire : Wire} {h t : PacketHandler} {left rest bytes : Bytes} {texts delivered : List String} {n fuel k line got : ℕ}

/-! ## Four bytes -/

theorem length_four {bytes : Bytes} (h : bytes.length = 4) : ∃ a b c d, bytes = [a, b, c, d] := by
  rcases bytes with _ | ⟨a, _ | ⟨b, _ | ⟨c, _ | ⟨d, _ | ⟨e, more⟩⟩⟩⟩⟩
  all_goals simp only [List.length_nil, List.length_cons] at h
  all_goals first
    | omega
    | exact ⟨a, b, c, d, rfl⟩

theorem pack_number (h : bytes.length = 4) : pack (number bytes) = bytes := by
  obtain ⟨a, b, c, d, rfl⟩ := length_four h
  have hbyte : ∀ (x : UInt8) (m : ℕ), m % 256 = x.toNat → UInt8.ofNat m = x := by
    intro x m hm
    apply UInt8.toNat_inj.mp
    rw [UInt8.toNat_ofNat']
    exact hm
  have ha := a.toNat_lt
  have hb := b.toNat_lt
  have hc := c.toNat_lt
  have hd := d.toNat_lt
  simp only [number, List.foldl_cons, List.foldl_nil, pack]
  rw [hbyte a _ (by omega), hbyte b _ (by omega), hbyte c _ (by omega), hbyte d _ (by omega)]

theorem number_pack (h : n < 256 ^ 4) : number (pack n) = n := by
  simp only [number, pack, List.foldl_cons, List.foldl_nil, UInt8.toNat_ofNat']
  omega

/-! ## The line of a proxy -/

/-- The length of the first line of a stream, with its end. -/
def lineLength : Bytes → Option ℕ
  | [] => none
  | byte :: rest => if byte = 13 ∧ rest.head? = some 10 then some 2 else (lineLength rest).map (· + 1)

theorem two_le_lineLength (h : lineLength bytes = some line) : 2 ≤ line := by
  induction bytes generalizing line with
  | nil => cases h
  | cons byte rest ih =>
      unfold lineLength at h
      split at h
      · cases h
        exact le_rfl
      · obtain ⟨shorter, hshorter, rfl⟩ := Option.map_eq_some_iff.mp h
        exact (ih hshorter).trans (Nat.le_succ _)

theorem head?_take_of_pos (hn : 0 < n) : (bytes.take n).head? = bytes.head? := by
  cases bytes with
  | nil => rw [List.take_nil]
  | cons byte rest =>
      cases n with
      | zero => exact absurd hn (lt_irrefl _)
      | succ n => rfl

/-- The line is there once its end is. -/
theorem hasLine_take : hasLine (bytes.take n) = true ↔ ∃ line, lineLength bytes = some line ∧ line ≤ n := by
  induction bytes generalizing n with
  | nil =>
      rw [List.take_nil]
      constructor
      · intro hline
        cases hline
      · rintro ⟨_, hline, _⟩
        cases hline
  | cons byte rest ih =>
      cases n with
      | zero =>
          constructor
          · intro hline
            cases hline
          · rintro ⟨line, hline, hzero⟩
            exact absurd ((two_le_lineLength hline).trans hzero) (by omega)
      | succ n =>
          simp only [List.take_succ_cons, hasLine, Bool.or_eq_true, Bool.and_eq_true, decide_eq_true_eq, ih, lineLength]
          by_cases hend : byte = 13 ∧ rest.head? = some 10
          · rw [if_pos hend]
            by_cases hn : 0 < n
            · rw [head?_take_of_pos hn]
              exact ⟨fun _ => ⟨2, rfl, by omega⟩, fun _ => .inl hend⟩
            · obtain rfl : n = 0 := by omega
              constructor
              · rintro (⟨_, hno⟩ | ⟨line, hline, hzero⟩)
                · cases hno
                · exact absurd ((two_le_lineLength hline).trans hzero) (by omega)
              · rintro ⟨line, hline, hone⟩
                cases hline
                omega
          · rw [if_neg hend]
            have hpart : ¬ (byte = 13 ∧ (rest.take n).head? = some 10) := by
              rintro ⟨hbyte, hhead⟩
              have hn : 0 < n := by
                by_contra hzero
                obtain rfl : n = 0 := by omega
                cases hhead
              exact hend ⟨hbyte, (head?_take_of_pos hn).symm.trans hhead⟩
            constructor
            · rintro (hno | ⟨line, hline, hle⟩)
              · exact absurd hno hpart
              · exact ⟨line + 1, by rw [hline]; rfl, by omega⟩
            · rintro ⟨line, hline, hle⟩
              obtain ⟨shorter, hshorter, rfl⟩ := Option.map_eq_some_iff.mp hline
              exact .inr ⟨shorter, hshorter, by omega⟩

theorem partition_take (hline : lineLength bytes = some line) (hle : line ≤ n) :
    partition (bytes.take n) = (bytes.take (line - 2), (bytes.take n).drop line) := by
  induction bytes generalizing n line with
  | nil => cases hline
  | cons byte rest ih =>
      have htwo := two_le_lineLength hline
      obtain ⟨m, rfl⟩ : ∃ m, n = m + 1 := ⟨n - 1, by omega⟩
      have hm : 0 < m := by omega
      unfold lineLength at hline
      rw [List.take_succ_cons]
      unfold partition
      rw [head?_take_of_pos hm]
      by_cases hend : byte = 13 ∧ rest.head? = some 10
      · rw [if_pos hend] at hline ⊢
        cases hline
        rw [Nat.sub_self, List.take_zero, List.drop_succ_cons, List.drop_one]
      · rw [if_neg hend] at hline ⊢
        obtain ⟨shorter, hshorter, rfl⟩ := Option.map_eq_some_iff.mp hline
        have htwo' := two_le_lineLength hshorter
        rw [ih hshorter (by omega)]
        have hsub : shorter + 1 - 2 = (shorter - 2) + 1 := by omega
        rw [hsub, List.take_succ_cons, List.drop_succ_cons]

/-- How many bytes past the line have arrived when the line has, if it does: the first four bytes are asked for, and
then 107 at a time, until more than 107 have arrived. -/
def surplus (line : ℕ) : ℕ → Feed UInt8 → ℕ → Option ℕ
  | 0, _, _ => none
  | fuel + 1, feed, got =>
      if line ≤ got then some (got - line)
      else if 107 < got then none
      else if feed.left = [] then none
      else
        let n := if got < 4 then 4 - got else 107
        surplus line fuel (feed.next n) (got + feed.size n)

theorem surplus_succ (line fuel : ℕ) (feed : Feed UInt8) (got : ℕ) : surplus line (fuel + 1) feed got =
    if line ≤ got then some (got - line)
    else if 107 < got then none
    else if feed.left = [] then none
    else surplus line fuel (feed.next (if got < 4 then 4 - got else 107))
      (got + feed.size (if got < 4 then 4 - got else 107)) := rfl

theorem length_next_lt {feed : Feed UInt8} (hn : 0 < n) (hleft : feed.left ≠ []) :
    (feed.next n).left.length < feed.left.length := by
  have hpos : 0 < feed.size n := Feed.size_pos hn hleft
  have hlength : 0 < feed.left.length := List.length_pos_iff.mpr hleft
  show (feed.left.drop (feed.size n)).length < _
  rw [List.length_drop]
  omega

theorem asked_pos : 0 < (if got < 4 then 4 - got else 107) := by
  split
  · omega
  · omega

theorem surplus_stable (feed : Feed UInt8) (got : ℕ) (hfuel : feed.left.length < fuel) :
    surplus line (fuel + 1) feed got = surplus line fuel feed got := by
  induction fuel generalizing feed got with
  | zero => exact absurd hfuel (Nat.not_lt_zero _)
  | succ fuel ih =>
      rw [surplus_succ line (fuel + 1), surplus_succ line fuel feed got]
      by_cases hline : line ≤ got
      · rw [if_pos hline, if_pos hline]
      rw [if_neg hline, if_neg hline]
      by_cases hlong : 107 < got
      · rw [if_pos hlong, if_pos hlong]
      rw [if_neg hlong, if_neg hlong]
      by_cases hleft : feed.left = []
      · rw [if_pos hleft, if_pos hleft]
      rw [if_neg hleft, if_neg hleft]
      have hshorter : (feed.next (if got < 4 then 4 - got else 107)).left.length < feed.left.length :=
        length_next_lt asked_pos hleft
      exact ih _ _ (by omega)

theorem surplus_fuel (feed : Feed UInt8) (got : ℕ) (hfuel : feed.left.length < fuel) :
    surplus line fuel feed got = surplus line (feed.left.length + 1) feed got := by
  induction fuel with
  | zero => exact absurd hfuel (Nat.not_lt_zero _)
  | succ fuel ih =>
      by_cases hless : feed.left.length < fuel
      · rw [surplus_stable feed got hless, ih hless]
      · have hfuel : fuel = feed.left.length := by omega
        rw [hfuel]

/-- `surplus`, with fuel for the whole stream. -/
def past (feed : Feed UInt8) (line got : ℕ) : Option ℕ := surplus line (feed.left.length + 1) feed got

theorem past_step (feed : Feed UInt8) (line got : ℕ) : past feed line got =
    if line ≤ got then some (got - line)
    else if 107 < got then none
    else if feed.left = [] then none
    else past (feed.next (if got < 4 then 4 - got else 107)) line (got + feed.size (if got < 4 then 4 - got else 107)) := by
  unfold past
  rw [surplus_succ]
  by_cases hleft : feed.left = []
  · rw [if_pos hleft, if_pos hleft]
  · rw [surplus_fuel _ _ (length_next_lt asked_pos hleft)]

/-- The first bytes of the connection of `h₀` have been read. -/
structure Track (h₀ : PacketHandler) (got : ℕ) (h : PacketHandler) : Prop where
  left : h.feed.left = h₀.feed.left.drop got
  delivered : h.delivered = h₀.delivered
  client : h.client = h₀.client
  past : ∀ line, 4 < line → lineLength h₀.feed.left = some line → past h.feed line got = past h₀.feed line 0
  got_le : got ≤ h₀.feed.left.length

section

variable {h₀ : PacketHandler}

theorem Track.start (h₀ : PacketHandler) : Track h₀ 0 h₀ := ⟨rfl, rfl, rfl, fun _ _ _ => rfl, Nat.zero_le _⟩

theorem Track.at_ (h : Track h₀ got t) : At (h₀.feed.left.drop got) h₀.delivered t := ⟨h.left, h.delivered⟩

/-- A read before the line is there. -/
theorem recv_track (hgot : got ≤ 107) (hasked : n = if got < 4 then 4 - got else 107)
    (hline : ∀ line, 4 < line → lineLength h₀.feed.left = some line → got < line) {E : Option Stop → PacketHandler → Prop} :
    Triple (Track h₀ got) (recv n) (fun data t => data.length ≤ n ∧ (data = [] ↔ got = h₀.feed.left.length) ∧
      h₀.feed.left.take got ++ data = h₀.feed.left.take (got + data.length) ∧ Track h₀ (got + data.length) t) E := by
  intro t ht
  have hn : 0 < n := by
    rw [hasked]
    exact asked_pos
  have hsize : (t.feed.data n).length = t.feed.size n := Feed.length_data
  have hleft : t.feed.left.length = h₀.feed.left.length - got := by rw [ht.left, List.length_drop]
  have hle : t.feed.size n ≤ t.feed.left.length := Feed.size_le_left
  have hgot' := ht.got_le
  refine ⟨?_, ?_, ?_, ⟨?_, ht.delivered, ht.client, fun line hfour hlength => ?_, ?_⟩⟩
  · rw [hsize]
    exact Feed.size_le
  · refine (Feed.data_eq_nil_iff hn).trans ?_
    rw [← List.length_eq_zero_iff, hleft]
    omega
  · rw [hsize, List.take_add, Feed.data, ht.left]
  · show t.feed.left.drop _ = _
    rw [ht.left, List.drop_drop, hsize]
  · have hless : ¬ line ≤ got := not_le.mpr (hline line hfour hlength)
    rw [← ht.past line hfour hlength, past_step t.feed, if_neg hless, if_neg (not_lt.mpr hgot), ← hasked, hsize]
    by_cases hend : t.feed.left = []
    · rw [if_pos hend]
      have hzero : t.feed.size n = 0 := by
        rw [hend, List.length_nil] at hle
        omega
      have hend' : (t.feed.next n).left = [] := by
        show t.feed.left.drop _ = []
        rw [hend, List.drop_nil]
      rw [hzero, Nat.add_zero, past_step, if_neg hless, if_neg (not_lt.mpr hgot), if_pos hend']
    · rw [if_neg hend]
  · rw [hsize]
    omega

/-- The first four bytes. -/
theorem readSize_track (hfour : 4 ≤ h₀.feed.left.length) (fuel got : ℕ) (hgot : got ≤ 4) :
    Triple (Track h₀ got) (readSize fuel (h₀.feed.left.take got))
      (fun size t => size = number (h₀.feed.left.take 4) ∧ Track h₀ 4 t) fun e _ => e = none ∧ fuel + got ≤ 4 := by
  induction fuel generalizing got with
  | zero => exact Triple.refused _ fun _ _ => ⟨rfl, by omega⟩
  | succ fuel ih =>
      have hlength : (h₀.feed.left.take got).length = got := List.length_take_of_le (hgot.trans hfour)
      unfold readSize
      rw [hlength]
      refine Triple.ite (fun hmissing => ?_) fun hwhole => ?_
      · have hasked : 4 - got = if got < 4 then 4 - got else 107 := (if_pos hmissing).symm
        refine (recv_track (by omega) hasked fun line hline _ => hgot.trans_lt hline).bind fun data => ?_
        refine Triple.each fun t ht => ?_
        obtain ⟨hdata, hnil, hbuffer, htrack⟩ := ht
        refine Triple.ite (fun hempty => absurd (hnil.mp hempty) (by omega)) fun hsome => ?_
        have hpos : 0 < data.length := List.length_pos_iff.mpr hsome
        rw [hbuffer]
        refine ((ih (got + data.length) (by omega)).weakenError fun e _ hfuel => ⟨hfuel.1, by omega⟩).of_pre ?_
        rintro _ rfl
        exact htrack
      · obtain rfl : got = 4 := by omega
        unfold unpack
        rw [if_pos hlength]
        exact Triple.ret _ fun _ ht => ⟨rfl, ht⟩

/-- Whether the line is there in time, and how much more. -/
theorem readProxyHeader_track (hline : ∀ line, lineLength h₀.feed.left = some line → 4 < line) (fuel got : ℕ)
    (hfour : 4 ≤ got) (hgot : got ≤ 214) :
    Triple (Track h₀ got) (readProxyHeader fuel (h₀.feed.left.take got))
      (fun buffer t => ∃ line k, lineLength h₀.feed.left = some line ∧ past h₀.feed line 0 = some k ∧ k ≤ 214 ∧
        buffer = h₀.feed.left.take (line + k) ∧ Track h₀ (line + k) t)
      fun e t => (e = some .disconnect ∧ t.delivered = h₀.delivered ∧
        ∀ line, lineLength h₀.feed.left = some line → past h₀.feed line 0 = none) ∨
        e = none ∧ fuel + got ≤ h₀.feed.left.length := by
  induction fuel generalizing got with
  | zero => exact Triple.refused _ fun _ ht => .inr ⟨rfl, by rw [Nat.zero_add]; exact ht.got_le⟩
  | succ fuel ih =>
      unfold readProxyHeader
      refine Triple.ite (fun hhas => ?_) fun hnot => ?_
      · -- the line is there
        obtain ⟨line, hlength, hle⟩ := hasLine_take.mp hhas
        refine Triple.ret _ fun t ht => ⟨line, got - line, hlength, ?_, by omega, ?_, ?_⟩
        · rw [← ht.past line (hline line hlength) hlength, past_step, if_pos hle]
        · rw [Nat.add_sub_cancel' hle]
        · rw [Nat.add_sub_cancel' hle]
          exact ht
      have hless : ∀ line, lineLength h₀.feed.left = some line → got < line := by
        intro line hlength
        by_contra hge
        exact hnot (hasLine_take.mpr ⟨line, hlength, not_lt.mp hge⟩)
      refine Triple.each fun t ht => ?_
      have hlength : (h₀.feed.left.take got).length = got := List.length_take_of_le ht.got_le
      rw [hlength]
      refine Triple.ite (fun hlong => ?_) fun hshort => ?_
      · -- too much without a line
        refine Triple.refused _ ?_
        rintro _ rfl
        refine .inl ⟨rfl, ht.delivered, fun line hlength => ?_⟩
        rw [← ht.past line (hline line hlength) hlength, past_step, if_neg (not_le.mpr (hless line hlength)), if_pos hlong]
      have hasked : 107 = if got < 4 then 4 - got else 107 := (if_neg (not_lt.mpr hfour)).symm
      refine (Triple.of_pre (recv_track (not_lt.mp hshort) hasked fun line _ => hless line) ?_).bind fun data => ?_
      · rintro _ rfl
        exact ht
      refine Triple.each fun t' ht' => ?_
      obtain ⟨hdata, hnil, hbuffer, htrack⟩ := ht'
      refine Triple.ite (fun hempty => Triple.refused _ ?_) fun hsome => ?_
      · -- the peer hangs up in the line
        rintro _ rfl
        refine .inl ⟨rfl, htrack.delivered, fun line hlength => ?_⟩
        have hend : t.feed.left = [] := by rw [ht.left, hnil.mp hempty, List.drop_length]
        rw [← ht.past line (hline line hlength) hlength, past_step, if_neg (not_le.mpr (hless line hlength)), if_neg hshort,
          if_pos hend]
      · have hpos : 0 < data.length := List.length_pos_iff.mpr hsome
        rw [hbuffer]
        refine ((ih (got + data.length) (by omega) (by omega)).weakenError fun e _ hend => ?_).of_pre ?_
        · exact hend.imp_right fun hfuel => ⟨hfuel.1, by omega⟩
        · rintro _ rfl
          exact htrack

end

/-! ## A whole connection -/

/-- The connection starts with the line of a proxy the settings know. -/
def PacketHandler.Proxied (wire : Wire) (h : PacketHandler) : Prop :=
  wire.proxies h.client.host = true ∧ h.feed.left.take 4 = [80, 82, 79, 88]

instance : Decidable (h.Proxied wire) := inferInstanceAs (Decidable (_ ∧ _))

/-- What a handler does with its connection. -/
inductive Session (wire : Wire) (h : PacketHandler) : List String → Option Stop → Prop where
  | plain {texts : List String} {stop : Option Stop} :
      ¬ h.Proxied wire → Reads wire 0 h.feed.left texts stop → Session wire h texts stop
  | noLine : h.Proxied wire → (∀ line, lineLength h.feed.left = some line → past h.feed line 0 = none) →
      Session wire h [] (some .disconnect)
  | badLine {line k : ℕ} {stop : Stop} :
      h.Proxied wire → lineLength h.feed.left = some line → past h.feed line 0 = some k →
      parseProxyProtocol (h.feed.left.take (line - 2)) = .error stop → Session wire h [] (some stop)
  | line {line k : ℕ} {found : Option (Address × Address)} {texts : List String} {stop : Option Stop} :
      h.Proxied wire → lineLength h.feed.left = some line → past h.feed line 0 = some k →
      parseProxyProtocol (h.feed.left.take (line - 2)) = .ok found → Reads wire k (h.feed.left.drop line) texts stop →
      Session wire h texts stop

theorem Session.total (wire : Wire) (h : PacketHandler) : ∃ texts stop, Session wire h texts stop := by
  by_cases hproxied : h.Proxied wire
  · cases hline : lineLength h.feed.left with
    | none => exact ⟨_, _, .noLine hproxied fun line hsome => absurd (hline.symm.trans hsome) (by simp)⟩
    | some line =>
        cases hpast : past h.feed line 0 with
        | none =>
            refine ⟨_, _, .noLine hproxied fun line' hsome => ?_⟩
            obtain rfl : line = line' := Option.some.inj (hline.symm.trans hsome)
            exact hpast
        | some k =>
            cases hparse : parseProxyProtocol (h.feed.left.take (line - 2)) with
            | error stop => exact ⟨_, _, .badLine hproxied hline hpast hparse⟩
            | ok found =>
                obtain ⟨texts, stop, hreads⟩ := Reads.total wire k (h.feed.left.drop line)
                exact ⟨_, _, .line hproxied hline hpast hparse hreads⟩
  · obtain ⟨texts, stop, hreads⟩ := Reads.total wire 0 h.feed.left
    exact ⟨_, _, .plain hproxied hreads⟩

/-- A line that starts as one of a proxy does not end in its first four bytes. -/
theorem four_lt_lineLength (hprox : bytes.take 4 = [80, 82, 79, 88]) (hline : lineLength bytes = some line) : 4 < line := by
  by_contra hle
  have hhas : hasLine (bytes.take 4) = true := hasLine_take.mpr ⟨line, hline, not_lt.mp hle⟩
  rw [hprox] at hhas
  exact absurd hhas (by decide)

theorem Halts.weaken {stop : Option Stop} {short short' : Prop} {e : Option Stop} (hhalts : Halts stop texts short e h)
    (hshort : short → short') : Halts stop texts short' e h :=
  hhalts.imp_right fun hend => ⟨hend.1, hend.2.imp_right hshort⟩

/-- The packets after the size of the first one. -/
theorem plain_spec {stop : Option Stop} (hreads : Reads wire 0 bytes texts stop) (hfour : 4 ≤ bytes.length) (fuel : ℕ)
    (delivered : List String) : Triple (At (bytes.drop 4) delivered) (do
        readSizedPacket wire fuel (number (bytes.take 4)) []
        readPackets wire fuel) (fun _ _ => False) (Halts stop (delivered ++ texts) (fuel ≤ bytes.length + 4)) := by
  have hgives : Gives (readSizedPacket wire fuel (number (bytes.take 4)) [])
    (wire.sized (number (bytes.take 4)) ([] ++ bytes.drop 4)) fuel ([] ++ bytes.drop 4).length (bytes.drop 4) delivered :=
    sized_spec fuel _ [] delivered (Nat.zero_le _)
  have hsized : wire.packet bytes = wire.sized (number (bytes.take 4)) (bytes.drop 4) := if_neg (not_lt.mpr hfour)
  rw [List.nil_append, ← hsized, List.length_drop] at hgives
  cases hreads with
  | torn _ hpos => exact absurd hpos (lt_irrefl _)
  | stops hpacket =>
      rw [hpacket] at hgives
      exact (hgives.halts (by omega)).bind fun _ _ hno => hno.elim
  | next hpacket _ hlater =>
      rw [hpacket] at hgives
      have hshorter := wire.packet_shorter hpacket
      refine (hgives.passes (by omega)).bind fun _ => ?_
      rw [← List.append_assoc]
      exact (readPackets_spec hlater (Nat.zero_sub _) fuel _).weakenError fun e h hend => hend.weaken fun hfuel => by omega

/-- The packets after the line of a proxy. -/
theorem afterLine_spec {stop : Option Stop} (hreads : Reads wire k bytes texts stop) (hk : k ≤ bytes.length) (hsmall : k ≤ 214)
    (fuel : ℕ) (delivered : List String) : Triple (At (bytes.drop k) delivered) (do
        readRemainder wire fuel (bytes.take k)
        readPackets wire fuel) (fun _ _ => False) (Halts stop (delivered ++ texts) (fuel ≤ bytes.length + 4)) := by
  have hmax : k ≤ MAX_ALLOWED_PACKET_SIZE := hsmall.trans (by decide)
  refine (readRemainder_spec hreads hk hmax fuel delivered).bind fun _ => Triple.each fun h hleaves => ?_
  obtain ⟨rest, before, later, hlater, rfl, hlength, hat⟩ := hleaves
  rw [← List.append_assoc]
  refine ((readPackets_spec hlater rfl fuel _).weakenError fun e h hend => hend.weaken fun hfuel => by omega).of_pre ?_
  rintro _ rfl
  exact hat

/-- A handler does with its connection what the bytes say, given fuel for them. -/
theorem handle_spec {stop : Option Stop} (hsession : Session wire h texts stop) (fuel : ℕ) :
    Triple (· = h) (handle wire fuel) (fun _ _ => False)
      (Halts stop (h.delivered ++ texts) (fuel ≤ h.feed.left.length + 4)) := by
  unfold handle
  by_cases hfour : h.feed.left.length < 4
  · -- not even a size arrives
    have hplain : ¬ h.Proxied wire := by
      rintro ⟨_, hprox⟩
      have hlength : (h.feed.left.take 4).length = 4 := by rw [hprox]; rfl
      rw [List.length_take] at hlength
      omega
    have hpacket : wire.packet h.feed.left = ([], .error (some .disconnect)) := if_pos hfour
    obtain ⟨rfl, rfl⟩ : texts = [] ∧ stop = some .disconnect := by
      cases hsession with
      | noLine hproxied => exact absurd hproxied hplain
      | badLine hproxied => exact absurd hproxied hplain
      | line hproxied => exact absurd hproxied hplain
      | plain _ hreads =>
          cases hreads with
          | stops hpacket' =>
              rw [hpacket] at hpacket'
              cases hpacket'
              exact ⟨rfl, rfl⟩
          | torn hpacket' =>
              rw [hpacket] at hpacket'
              cases hpacket'
          | next hpacket' =>
              rw [hpacket] at hpacket'
              cases hpacket'
    have hshort : Triple (At h.feed.left h.delivered) (readSize fuel []) _ _ := readSize_short fuel [] h.delivered (by simpa using hfour)
    refine ((hshort.of_pre ?_).weakenError fun e t hend => ?_).bind fun _ _ hno => hno.elim
    · rintro _ rfl
      exact ⟨rfl, rfl⟩
    · rcases hend with ⟨rfl, hdelivered⟩ | ⟨rfl, hfuel⟩
      · exact .inl ⟨rfl, by rw [hdelivered, List.append_nil]⟩
      · exact .refused (by omega)
  have hlength : 4 ≤ h.feed.left.length := not_lt.mp hfour
  have hfourth : (h.feed.left.take 4).length = 4 := List.length_take_of_le hlength
  have htag : Triple (Track h 0) (readSize fuel []) _ _ := readSize_track hlength fuel 0 (Nat.zero_le _)
  refine ((htag.of_pre ?_).weakenError fun e t hend => ?_).bind fun tag => ?_
  · rintro _ rfl
    exact .start _
  · obtain ⟨rfl, hfuel⟩ := hend
    exact .refused (by omega)
  apply Triple.assume
  rintro rfl
  refine Triple.bind (Q := fun u t => u = t ∧ Track h 4 t) (Triple.read fun t ht => ⟨rfl, ht⟩) fun u => ?_
  refine Triple.each fun t ht => ?_
  obtain ⟨rfl, htrack⟩ := ht
  dsimp only
  rw [pack_number hfourth, htrack.client]
  by_cases hproxied : h.Proxied wire
  · have hcond : wire.proxies h.client.host = true ∧ h.feed.left.take 4 = [80, 82, 79, 88] := hproxied
    rw [if_pos hcond]
    have hheader : Triple (Track h 4) (readProxyHeader fuel (h.feed.left.take 4)) _ _ :=
      readProxyHeader_track (fun line hline => four_lt_lineLength hproxied.2 hline) fuel 4 le_rfl (by omega)
    refine ((hheader.of_pre ?_).weakenError fun e t' hend => ?_).bind fun buffer => Triple.each fun t' ht' => ?_
    · rintro _ rfl
      exact htrack
    · rcases hend with ⟨rfl, hdelivered, hnone⟩ | ⟨rfl, hfuel⟩
      · -- the handler disconnects: the session has no line
        cases hsession with
        | plain hplain => exact absurd hproxied hplain
        | noLine => exact .inl ⟨rfl, by rw [hdelivered, List.append_nil]⟩
        | badLine _ hline hpast =>
            rw [hnone _ hline] at hpast
            cases hpast
        | line _ hline hpast =>
            rw [hnone _ hline] at hpast
            cases hpast
      · exact .refused (by omega)
    obtain ⟨line, k, hline, hpast, hk, rfl, htrack'⟩ := ht'
    have hpartition := partition_take hline (Nat.le_add_right line k)
    have htake : (h.feed.left.take (line + k)).drop line = (h.feed.left.drop line).take k := by
      rw [List.drop_take, Nat.add_sub_cancel_left]
    rw [hpartition, htake]
    dsimp only
    cases hsession with
    | plain hplain => exact absurd hproxied hplain
    | noLine _ hnone =>
        rw [hnone _ hline] at hpast
        cases hpast
    | badLine _ hline' hpast' hparse =>
        obtain rfl := Option.some.inj (hline.symm.trans hline')
        rw [hparse]
        refine Triple.bind (Q := fun _ _ => False) (Triple.refused _ ?_) fun _ _ hno => hno.elim
        rintro _ rfl
        exact .inl ⟨rfl, by rw [htrack'.delivered, List.append_nil]⟩
    | @line line' k' found texts stop _ hline' hpast' hparse hreads =>
        obtain rfl := Option.some.inj (hline.symm.trans hline')
        obtain rfl := Option.some.inj (hpast.symm.trans hpast')
        rw [hparse]
        have hrest : k ≤ (h.feed.left.drop line).length := by
          have hle := htrack'.got_le
          rw [List.length_drop]
          omega
        have hdrop : h.feed.left.drop (line + k) = (h.feed.left.drop line).drop k := List.drop_drop.symm
        have hend : Triple (At (h.feed.left.drop (line + k)) h.delivered) (do
            readRemainder wire fuel ((h.feed.left.drop line).take k)
            readPackets wire fuel) (fun _ _ => False)
            (Halts stop (h.delivered ++ texts) (fuel ≤ h.feed.left.length + 4)) := by
          rw [hdrop]
          refine (afterLine_spec hreads hrest hk fuel h.delivered).weakenError fun e t hend => hend.weaken fun hfuel => ?_
          rw [List.length_drop] at hfuel
          omega
        cases found with
        | none =>
            refine hend.of_pre ?_
            rintro _ rfl
            exact htrack'.at_
        | some found =>
            refine Triple.bind (Q := fun _ => At (h.feed.left.drop (line + k)) h.delivered) (Triple.write ?_) fun _ => hend
            rintro _ rfl
            exact ⟨htrack'.left, htrack'.delivered⟩
  · have hcond : ¬ (wire.proxies h.client.host = true ∧ h.feed.left.take 4 = [80, 82, 79, 88]) := hproxied
    rw [if_neg hcond]
    cases hsession with
    | noLine hno => exact absurd hno hproxied
    | badLine hno => exact absurd hno hproxied
    | line hno => exact absurd hno hproxied
    | plain _ hreads =>
        refine (plain_spec hreads hlength fuel h.delivered).of_pre ?_
        rintro _ rfl
        exact htrack.at_

end Bridge
end CpcJudge
