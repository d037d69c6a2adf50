import CpcJudge.Bridge.Packets

/-!
# `Bridge.Framing` — what a stream is read as

However the stream is cut, the loops read the same packets (`sized_spec`, `readSize_spec`), so what a handler does with
a stream from the start of a packet on is a relation of the bytes alone (`Reads`), except that it also depends on how
many of them arrived with the line of a proxy: where that ends inside the size of a packet, the handler crashes after
the packet.
-/

namespace CpcJudge
namespace Bridge

open Txn

variable {wire : Wire} {h t : PacketHandler} {left rest bytes : Bytes} {texts delivered : List String} {n fuel k size : ℕ}

/-- What is left of the stream, and the texts delivered. -/
structure At (left : Bytes) (delivered : List String) (h : PacketHandler) : Prop where
  left : h.feed.left = left
  delivered : h.delivered = delivered

/-! ## The loops -/

/-- A read of part of the stream. -/
theorem recv_part {part : Bytes} (hn : 0 < n) (hsize : n ≤ part.length) (delivered : List String) {E : Option Stop → PacketHandler → Prop} :
    Triple (At (part ++ rest) delivered) (recv n) (fun data h => data ≠ [] ∧ ∃ part', part = data ++ part' ∧
      At (part' ++ rest) delivered h) E := by
  intro h hat
  have hpart : h.feed.size n ≤ part.length := Feed.size_le.trans hsize
  obtain ⟨hdata, hnext⟩ := Feed.data_of_le hat.left hpart
  refine ⟨fun hnil => ?_, _, hdata, ⟨hnext, hat.delivered⟩⟩
  have hleft : part ++ rest = [] := hat.left.symm.trans ((Feed.data_eq_nil_iff hn).mp hnil)
  rw [(List.append_eq_nil_iff.mp hleft).1, List.length_nil] at hsize
  omega

/-- A read of whatever there is. -/
theorem recv_any (delivered : List String) {E : Option Stop → PacketHandler → Prop} :
    Triple (At left delivered) (recv n) (fun data h => data.length ≤ n ∧ ∃ left', left = data ++ left' ∧
      At left' delivered h) E := by
  intro h hat
  refine ⟨?_, _, ?_, ⟨rfl, hat.delivered⟩⟩
  · show (h.feed.data n).length ≤ n
    rw [Feed.length_data]
    exact Feed.size_le
  · rw [← hat.left]
    exact Feed.data_append.symm

/-- Nothing is left to read. -/
theorem recv_end (delivered : List String) {E : Option Stop → PacketHandler → Prop} :
    Triple (At [] delivered) (recv n) (fun data h => data = [] ∧ At [] delivered h) E := by
  intro h hat
  refine ⟨?_, ⟨?_, hat.delivered⟩⟩
  · show h.feed.data n = []
    rw [Feed.data, hat.left, List.take_nil]
  · show h.feed.left.drop _ = []
    rw [hat.left, List.drop_nil]

/-- A body that arrives whole. -/
theorem readBody_spec (fuel : ℕ) (body : Bytes) (delivered : List String) :
    Triple (At (body ++ rest) delivered) (readBody fuel body.length) (fun data h => data = body ∧ At rest delivered h)
      fun e _ => e = none ∧ fuel ≤ body.length := by
  induction fuel generalizing body with
  | zero => exact Triple.refused _ fun _ _ => ⟨rfl, Nat.zero_le _⟩
  | succ fuel ih =>
      unfold readBody
      refine Triple.ite (fun hempty => Triple.ret _ fun h hat => ?_) fun hsome => ?_
      · have hbody : body = [] := List.length_eq_zero_iff.mp hempty
        subst hbody
        exact ⟨rfl, hat⟩
      refine (recv_part (Nat.pos_of_ne_zero hsome) le_rfl delivered).bind fun data => Triple.each fun h hread => ?_
      obtain ⟨hdata, part', rfl, hat⟩ := hread
      have hlength : (data ++ part').length - data.length = part'.length := by simp
      rw [hlength]
      have hfuel : fuel ≤ part'.length → fuel + 1 ≤ (data ++ part').length := by
        have hpos : 0 < data.length := List.length_pos_iff.mpr hdata
        rw [List.length_append]
        omega
      refine (((ih part').weakenError fun e _ hout => ⟨hout.1, hfuel hout.2⟩).bind fun data' => Triple.ret _ ?_).of_pre ?_
      · rintro h' ⟨rfl, hat'⟩
        exact ⟨rfl, hat'⟩
      · rintro _ rfl
        exact hat

/-- A body the peer hangs up in: the loop never ends. -/
theorem readBody_stuck (fuel : ℕ) (delivered : List String) (hshort : left.length < n) :
    Triple (At left delivered) (readBody fuel n) (fun _ _ => False) fun e h => e = none ∧ h.delivered = delivered := by
  induction fuel generalizing left n with
  | zero => exact Triple.refused _ fun _ hat => ⟨rfl, hat.delivered⟩
  | succ fuel ih =>
      unfold readBody
      refine Triple.ite (fun hzero => absurd hzero (by omega)) fun _ => ?_
      refine (recv_any delivered).bind fun data => Triple.each fun h hread => ?_
      obtain ⟨hdata, left', rfl, hat⟩ := hread
      rw [List.length_append] at hshort
      have hrest : Triple (At left' delivered) (readBody fuel (n - data.length)) _ _ := ih (by omega)
      refine (hrest.bind fun _ _ hno => hno.elim).of_pre ?_
      rintro _ rfl
      exact hat

/-- A size that arrives whole. -/
theorem readSize_spec (fuel : ℕ) (buffer part : Bytes) (delivered : List String) (hfour : buffer.length + part.length = 4) :
    Triple (At (part ++ rest) delivered) (readSize fuel buffer)
      (fun size h => size = number (buffer ++ part) ∧ At rest delivered h) fun e _ => e = none ∧ fuel ≤ part.length := by
  induction fuel generalizing buffer part with
  | zero => exact Triple.refused _ fun _ _ => ⟨rfl, Nat.zero_le _⟩
  | succ fuel ih =>
      unfold readSize
      refine Triple.ite (fun hmissing => ?_) fun hwhole => ?_
      · refine (recv_part (by omega) (by omega) delivered).bind fun data => Triple.each fun h hread => ?_
        obtain ⟨hdata, part', rfl, hat⟩ := hread
        have hpos : 0 < data.length := List.length_pos_iff.mpr hdata
        rw [List.length_append] at hfour
        refine Triple.ite (fun hnil => absurd hnil hdata) fun _ => ?_
        have hrest := ih (buffer ++ data) part' (by rw [List.length_append]; omega)
        rw [List.append_assoc] at hrest
        have hfuel : fuel ≤ part'.length → fuel + 1 ≤ (data ++ part').length := by
          rw [List.length_append]
          omega
        refine (hrest.weakenError fun e _ hout => ⟨hout.1, hfuel hout.2⟩).of_pre ?_
        rintro _ rfl
        exact hat
      · have hpart : part = [] := List.length_eq_zero_iff.mp (by omega)
        subst hpart
        have hlength : buffer.length = 4 := by simpa using hfour
        unfold unpack
        rw [if_pos hlength, List.append_nil]
        exact Triple.ret _ fun h hat => ⟨rfl, hat⟩

/-- A size the peer hangs up in. -/
theorem readSize_short (fuel : ℕ) (buffer : Bytes) (delivered : List String) (hshort : buffer.length + left.length < 4) :
    Triple (At left delivered) (readSize fuel buffer) (fun _ _ => False)
      fun e h => e = some .disconnect ∧ h.delivered = delivered ∨ e = none ∧ fuel ≤ left.length := by
  induction fuel generalizing buffer left with
  | zero => exact Triple.refused _ fun _ _ => .inr ⟨rfl, Nat.zero_le _⟩
  | succ fuel ih =>
      unfold readSize
      refine Triple.ite (fun _ => ?_) fun hwhole => absurd hwhole (by omega)
      refine (recv_any delivered).bind fun data => Triple.each fun h hread => ?_
      obtain ⟨-, left', rfl, hat⟩ := hread
      refine Triple.ite (fun _ => Triple.refused _ ?_) fun hdata => ?_
      · rintro _ rfl
        exact .inl ⟨rfl, hat.delivered⟩
      have hpos : 0 < data.length := List.length_pos_iff.mpr hdata
      rw [List.length_append] at hshort
      have hrest : Triple (At left' delivered) (readSize fuel (buffer ++ data)) _ _ :=
        ih (buffer ++ data) (by rw [List.length_append]; omega)
      refine (hrest.weakenError ?_).of_pre ?_
      · rintro e t (hend | ⟨he, hfuel⟩)
        · exact .inl hend
        · refine .inr ⟨he, ?_⟩
          rw [List.length_append]
          omega
      · rintro _ rfl
        exact hat

/-! ## One packet -/

/-- The texts `_on_packet` delivers, and what it raises. -/
def Wire.accept (wire : Wire) (data : Bytes) : List String × Option Stop :=
  match wire.decompress data with
  | none => ([], some .zlib)
  | some bytes =>
      match decode bytes with
      | none => ([], some .unicode)
      | some text => ([text], wire.onPacket text)

theorem onPacketData_spec (data : Bytes) (delivered : List String) :
    Triple (At left delivered) (onPacketData wire data)
      (fun _ h => (wire.accept data).2 = none ∧ At left (delivered ++ (wire.accept data).1) h)
      fun e h => (∃ stop, (wire.accept data).2 = some stop ∧ e = some stop) ∧
        h.delivered = delivered ++ (wire.accept data).1 := by
  unfold onPacketData Wire.accept
  cases wire.decompress data with
  | none => exact Triple.refused _ fun h hat => ⟨⟨.zlib, rfl, rfl⟩, by rw [hat.delivered, List.append_nil]⟩
  | some bytes =>
      dsimp only
      cases decode bytes with
      | none => exact Triple.refused _ fun h hat => ⟨⟨.unicode, rfl, rfl⟩, by rw [hat.delivered, List.append_nil]⟩
      | some text =>
          dsimp only
          refine Triple.bind (Q := fun _ => At left (delivered ++ [text])) (Triple.write fun h hat => ?_) fun _ => ?_
          · exact ⟨hat.left, by rw [hat.delivered]⟩
          cases wire.onPacket text with
          | none => exact Triple.ret _ fun h hat => ⟨rfl, hat⟩
          | some stop => exact Triple.refused _ fun h hat => ⟨⟨stop, rfl, rfl⟩, hat.delivered⟩

/-- What reading a packet of a size gives: the texts, and what it stops with or the stream after it. -/
def Wire.sized (wire : Wire) (size : ℕ) (after : Bytes) : List String × Except (Option Stop) Bytes :=
  if MAX_ALLOWED_PACKET_SIZE < size then ([], .error (some .disconnect))
  else if after.length < size then ([], .error none)
  else
    ((wire.accept (after.take size)).1,
      (wire.accept (after.take size)).2.elim (.ok (after.drop size)) fun stop => .error (some stop))

/-- What reading a packet gives. -/
def Wire.packet (wire : Wire) (bytes : Bytes) : List String × Except (Option Stop) Bytes :=
  if bytes.length < 4 then ([], .error (some .disconnect)) else wire.sized (number (bytes.take 4)) (bytes.drop 4)

/-- A program reads what `result` says, or has too little fuel. -/
structure Gives (x : PacketM Unit) (result : List String × Except (Option Stop) Bytes) (fuel need : ℕ)
    (left : Bytes) (delivered : List String) : Prop where
  run : Triple (At left delivered) x (fun _ h => ∃ rest, result.2 = .ok rest ∧ At rest (delivered ++ result.1) h)
    fun e h => result.2 = .error e ∧ h.delivered = delivered ++ result.1 ∨ e = none ∧ fuel ≤ need

/-- The end of a body. -/
theorem onPacketData_gives {need : ℕ} (hsmall : ¬ MAX_ALLOWED_PACKET_SIZE < size) {after : Bytes} (hwhole : size ≤ after.length)
    (delivered : List String) :
    Gives (onPacketData wire (after.take size)) (wire.sized size after) fuel need (after.drop size) delivered := by
  have hresult : wire.sized size after = ((wire.accept (after.take size)).1,
      (wire.accept (after.take size)).2.elim (.ok (after.drop size)) fun stop => .error (some stop)) := by
    unfold Wire.sized
    rw [if_neg hsmall, if_neg (not_lt.mpr hwhole)]
  rw [hresult]
  refine ⟨((onPacketData_spec _ delivered).weaken fun _ h hend => ?_).weakenError fun e h hend => ?_⟩
  · obtain ⟨hnone, hat⟩ := hend
    rw [hnone]
    exact ⟨_, rfl, hat⟩
  · obtain ⟨⟨stop, hsome, rfl⟩, hdelivered⟩ := hend
    rw [hsome]
    exact .inl ⟨rfl, hdelivered⟩

/-- `read_sized_packet`, with the first part of the body at hand. -/
theorem sized_spec (fuel size : ℕ) (initial : Bytes) (delivered : List String) (hinitial : initial.length ≤ size) :
    Gives (readSizedPacket wire fuel size initial) (wire.sized size (initial ++ left)) fuel (initial ++ left).length left
      delivered := by
  refine ⟨?_⟩
  unfold readSizedPacket
  by_cases hlarge : MAX_ALLOWED_PACKET_SIZE < size
  · rw [if_pos hlarge]
    refine Triple.refused _ fun h hat => .inl ⟨?_, ?_⟩
    · simp [Wire.sized, hlarge]
    · simp [Wire.sized, hlarge, hat.delivered]
  rw [if_neg hlarge, if_pos hinitial]
  by_cases hwhole : size ≤ (initial ++ left).length
  · -- the rest of the body arrives whole
    obtain ⟨body, rest, rfl, hlength⟩ : ∃ body rest, left = body ++ rest ∧ body.length = size - initial.length := by
      refine ⟨left.take (size - initial.length), left.drop (size - initial.length), (List.take_append_drop _ _).symm, ?_⟩
      rw [List.length_append] at hwhole
      rw [List.length_take]
      omega
    have htake : (initial ++ (body ++ rest)).take size = initial ++ body := by
      rw [← List.append_assoc, List.take_left' (by rw [List.length_append]; omega)]
    have hdrop : (initial ++ (body ++ rest)).drop size = rest := by
      rw [← List.append_assoc, List.drop_left' (by rw [List.length_append]; omega)]
    have hend : Gives (onPacketData wire ((initial ++ (body ++ rest)).take size))
      (wire.sized size (initial ++ (body ++ rest))) fuel (initial ++ (body ++ rest)).length
      ((initial ++ (body ++ rest)).drop size) delivered := onPacketData_gives hlarge hwhole delivered
    rw [htake, hdrop] at hend
    rw [← hlength]
    refine ((readBody_spec fuel body delivered).weakenError ?_).bind fun data => ?_
    · rintro e _ ⟨rfl, hfuel⟩
      refine .inr ⟨rfl, ?_⟩
      rw [List.length_append, List.length_append]
      omega
    · apply Triple.assume
      rintro rfl
      exact hend.run
  · have hcut : (initial ++ left).length < size := not_le.mp hwhole
    have hresult : wire.sized size (initial ++ left) = ([], .error none) := by
      unfold Wire.sized
      rw [if_neg hlarge, if_pos hcut]
    rw [hresult]
    rw [List.length_append] at hcut
    refine ((readBody_stuck fuel delivered (by omega)).weakenError fun e h hend => .inl ⟨?_, ?_⟩).bind fun _ _ hno => hno.elim
    · rw [hend.1]
    · rw [hend.2, List.append_nil]

/-- `read_size` and `read_sized_packet`, with the first bytes at hand. -/
theorem packet_spec (fuel : ℕ) (buffer : Bytes) (delivered : List String) (hbuffer : buffer.length ≤ 4) :
    Gives (do let size ← readSize fuel buffer; readSizedPacket wire fuel size []) (wire.packet (buffer ++ left)) fuel
      (buffer ++ left).length left delivered := by
  refine ⟨?_⟩
  by_cases hshort : (buffer ++ left).length < 4
  · have hresult : wire.packet (buffer ++ left) = ([], .error (some .disconnect)) := if_pos hshort
    rw [hresult]
    rw [List.length_append] at hshort
    refine ((readSize_short fuel buffer delivered hshort).weakenError fun e h hend => ?_).bind fun _ _ hno => hno.elim
    rcases hend with ⟨rfl, hdelivered⟩ | ⟨rfl, hfuel⟩
    · exact .inl ⟨rfl, by rw [hdelivered, List.append_nil]⟩
    · refine .inr ⟨rfl, ?_⟩
      rw [List.length_append]
      omega
  · have hlength : 4 ≤ buffer.length + left.length := by
      rw [← List.length_append]
      exact not_lt.mp hshort
    obtain ⟨part, rest, rfl, hpart⟩ : ∃ part rest, left = part ++ rest ∧ part.length = 4 - buffer.length := by
      refine ⟨left.take (4 - buffer.length), left.drop (4 - buffer.length), (List.take_append_drop _ _).symm, ?_⟩
      rw [List.length_take]
      omega
    have hhead : (buffer ++ part).length = 4 := by
      rw [List.length_append]
      omega
    have htake : (buffer ++ (part ++ rest)).take 4 = buffer ++ part := by
      rw [← List.append_assoc, List.take_left' hhead]
    have hresult : wire.packet (buffer ++ (part ++ rest)) = wire.sized (number (buffer ++ part)) ([] ++ rest) := by
      unfold Wire.packet
      rw [if_neg hshort, htake, ← List.append_assoc, List.drop_left' hhead, List.nil_append]
    rw [hresult]
    have hneed : (buffer ++ (part ++ rest)).length = 4 + rest.length := by
      rw [← List.append_assoc, List.length_append, hhead]
    rw [hneed]
    refine ((readSize_spec fuel buffer part delivered (by omega)).weakenError fun e h hend => ?_).bind fun size => ?_
    · exact .inr ⟨hend.1, by omega⟩
    · apply Triple.assume
      rintro rfl
      have hsized : Gives (readSizedPacket wire fuel (number (buffer ++ part)) [])
        (wire.sized (number (buffer ++ part)) ([] ++ rest)) fuel ([] ++ rest).length rest delivered :=
        sized_spec fuel _ [] delivered (Nat.zero_le _)
      rw [List.nil_append] at hsized
      exact hsized.run.weakenError fun e h hend => hend.imp_right fun hfuel => ⟨hfuel.1, by omega⟩

/-! ## All packets -/

/-- What a handler does with a stream from the start of a packet on, `k` bytes of which arrived with the line of a
proxy: the texts it delivers, and what it stops with, or `none` if it never stops. -/
inductive Reads (wire : Wire) : ℕ → Bytes → List String → Option Stop → Prop where
  | stops {k : ℕ} {bytes : Bytes} {texts : List String} {stop : Option Stop} :
      wire.packet bytes = (texts, .error stop) → Reads wire k bytes texts stop
  | torn {k : ℕ} {bytes rest : Bytes} {texts : List String} :
      wire.packet bytes = (texts, .ok rest) → 0 < k → k < 4 → Reads wire k bytes texts (some .struct)
  | next {k : ℕ} {bytes rest : Bytes} {texts later : List String} {stop : Option Stop} :
      wire.packet bytes = (texts, .ok rest) → k = 0 ∨ 4 ≤ k →
      Reads wire (k - (bytes.length - rest.length)) rest later stop → Reads wire k bytes (texts ++ later) stop

/-- A packet that is read leaves what comes after its body. -/
theorem Wire.packet_ok (hpacket : wire.packet bytes = (texts, .ok rest)) : 4 ≤ bytes.length ∧
    number (bytes.take 4) ≤ MAX_ALLOWED_PACKET_SIZE ∧ number (bytes.take 4) ≤ bytes.length - 4 ∧
    rest = bytes.drop (4 + number (bytes.take 4)) ∧
    wire.accept ((bytes.drop 4).take (number (bytes.take 4))) = (texts, none) := by
  unfold Wire.packet at hpacket
  split at hpacket
  · cases hpacket
  rename_i hfour
  unfold Wire.sized at hpacket
  split at hpacket
  · cases hpacket
  rename_i hlarge
  split at hpacket
  · cases hpacket
  rename_i hwhole
  rw [List.length_drop] at hwhole
  cases haccept : (wire.accept ((bytes.drop 4).take (number (bytes.take 4)))).2 with
  | some stop =>
      rw [haccept] at hpacket
      cases hpacket
  | none =>
      rw [haccept] at hpacket
      cases hpacket
      refine ⟨not_lt.mp hfour, not_lt.mp hlarge, not_lt.mp hwhole, List.drop_drop, ?_⟩
      rw [← haccept]

/-- The packets that come after are read from what is left. -/
theorem Wire.packet_shorter (hpacket : wire.packet bytes = (texts, .ok rest)) :
    bytes.length = rest.length + (4 + number (bytes.take 4)) := by
  obtain ⟨hfour, -, hwhole, rfl, -⟩ := wire.packet_ok hpacket
  rw [List.length_drop]
  omega

/-- Every stream is read as something. -/
theorem Reads.total (wire : Wire) (k : ℕ) (bytes : Bytes) : ∃ texts stop, Reads wire k bytes texts stop := by
  induction hlength : bytes.length using Nat.strong_induction_on generalizing k bytes with
  | _ length ih =>
      cases hpacket : wire.packet bytes with
      | mk texts result =>
          cases result with
          | error stop => exact ⟨texts, stop, .stops hpacket⟩
          | ok rest =>
              have hshorter := wire.packet_shorter hpacket
              by_cases htorn : 0 < k ∧ k < 4
              · exact ⟨texts, some .struct, .torn hpacket htorn.1 htorn.2⟩
              · obtain ⟨later, stop, hlater⟩ := ih rest.length (by omega) (k - (bytes.length - rest.length)) rest rfl
                exact ⟨texts ++ later, stop, .next hpacket (by omega) hlater⟩

/-- How a program stops: as it should, or for want of fuel, where it should never stop or has too little. -/
def Halts (stop : Option Stop) (texts : List String) (short : Prop) (e : Option Stop) (h : PacketHandler) : Prop :=
  e = stop ∧ h.delivered = texts ∨ e = none ∧ (stop = none ∨ short)

theorem Halts.refused {stop : Option Stop} {short : Prop} (hshort : short) :
    Halts stop texts short none h := .inr ⟨rfl, .inr hshort⟩

/-- What a packet that ends a stream is read as. -/
theorem Gives.halts {x : PacketM Unit} {stop : Option Stop} {need : ℕ} {short : Prop}
    (hgives : Gives x (texts, .error stop) fuel need left delivered) (hshort : fuel ≤ need → short) :
    Triple (At left delivered) x (fun _ _ => False) (Halts stop (delivered ++ texts) short) := by
  refine (hgives.run.weaken fun _ h hend => ?_).weakenError fun e h hend => ?_
  · obtain ⟨_, hno, _⟩ := hend
    cases hno
  · rcases hend with ⟨heq, hdelivered⟩ | ⟨rfl, hfuel⟩
    · cases heq
      exact .inl ⟨rfl, hdelivered⟩
    · exact .refused (hshort hfuel)

/-- What a packet that does not end it is read as, whatever the stream stops with. -/
theorem Gives.passes {x : PacketM Unit} {stop : Option Stop} {need : ℕ} {short : Prop} {all : List String}
    (hgives : Gives x (texts, .ok rest) fuel need left delivered) (hshort : fuel ≤ need → short) :
    Triple (At left delivered) x (fun _ => At rest (delivered ++ texts)) (Halts stop all short) := by
  refine (hgives.run.weaken fun _ h hend => ?_).weakenError fun e h hend => ?_
  · obtain ⟨rest', heq, hat⟩ := hend
    cases heq
    exact hat
  · rcases hend with ⟨hno, _⟩ | ⟨rfl, hfuel⟩
    · cases hno
    · exact .refused (hshort hfuel)

/-- The loop over the packets. -/
theorem readPackets_spec {stop : Option Stop} (hreads : Reads wire k bytes texts stop) (hk : k = 0) (fuel : ℕ)
    (delivered : List String) : Triple (At bytes delivered) (readPackets wire fuel) (fun _ _ => False)
      (Halts stop (delivered ++ texts) (fuel ≤ bytes.length + 4)) := by
  have hstep : ∀ fuel, readPackets wire (fuel + 1) =
      (do let size ← readSize fuel []; readSizedPacket wire fuel size []) >>= fun _ => readPackets wire fuel := by
    intro fuel
    rw [bind_assoc]
    rfl
  induction hreads generalizing fuel delivered with
  | torn _ hpos => exact absurd hk hpos.ne'
  | @stops k bytes texts stop hpacket =>
      cases fuel with
      | zero => exact Triple.refused _ fun _ _ => .refused (Nat.zero_le _)
      | succ fuel =>
          rw [hstep]
          have hgives : Gives (do let size ← readSize fuel []; readSizedPacket wire fuel size []) (wire.packet bytes) fuel
            bytes.length bytes delivered := packet_spec fuel [] delivered (Nat.zero_le _)
          rw [hpacket] at hgives
          exact (hgives.halts (by omega)).bind fun _ _ hno => hno.elim
  | @next k bytes rest texts later stop hpacket _ _ ih =>
      cases fuel with
      | zero => exact Triple.refused _ fun _ _ => .refused (Nat.zero_le _)
      | succ fuel =>
          rw [hstep]
          have hgives : Gives (do let size ← readSize fuel []; readSizedPacket wire fuel size []) (wire.packet bytes) fuel
            bytes.length bytes delivered := packet_spec fuel [] delivered (Nat.zero_le _)
          have hshorter := wire.packet_shorter hpacket
          rw [hpacket] at hgives
          refine (hgives.passes (by omega)).bind fun _ => ?_
          rw [← List.append_assoc]
          refine (ih (by omega) fuel (delivered ++ texts)).weakenError fun e h hend => hend.imp_right fun hend => ?_
          exact ⟨hend.1, hend.2.imp_right fun hfuel => by omega⟩

/-- A packet that arrived whole with the line. -/
theorem Wire.packet_whole (hfour : 4 ≤ bytes.length) (hsmall : number (bytes.take 4) ≤ MAX_ALLOWED_PACKET_SIZE)
    (hwhole : number (bytes.take 4) ≤ bytes.length - 4) :
    wire.packet bytes = ((wire.accept ((bytes.drop 4).take (number (bytes.take 4)))).1,
      (wire.accept ((bytes.drop 4).take (number (bytes.take 4)))).2.elim
        (.ok ((bytes.drop 4).drop (number (bytes.take 4)))) fun stop => .error (some stop)) := by
  unfold Wire.packet Wire.sized
  rw [if_neg (not_lt.mpr hfour), if_neg (not_lt.mpr hsmall), if_neg]
  rw [List.length_drop]
  exact not_lt.mpr hwhole

/-- What the loop over the bytes that arrived with the line leaves to the loop over the packets. -/
def Leaves (wire : Wire) (bytes : Bytes) (texts delivered : List String) (stop : Option Stop) (h : PacketHandler) : Prop :=
  ∃ rest before later, Reads wire 0 rest later stop ∧ texts = before ++ later ∧ rest.length ≤ bytes.length ∧
    At rest (delivered ++ before) h

theorem Leaves.after {before later : List String} {stop : Option Stop} (hleaves : Leaves wire rest later (delivered ++ before) stop h)
    (hrest : rest.length ≤ bytes.length) : Leaves wire bytes (before ++ later) delivered stop h := by
  obtain ⟨rest', before', later', hreads, rfl, hlength, hat⟩ := hleaves
  refine ⟨rest', before ++ before', later', hreads, (List.append_assoc _ _ _).symm, hlength.trans hrest, ?_⟩
  rw [← List.append_assoc]
  exact hat

/-- Fewer than four bytes of a packet arrived with the line: they are read, and then unpacked as well. -/
theorem readRemainder_torn {stop : Option Stop} (hreads : Reads wire k bytes texts stop) (hpos : 0 < k) (hfew : k < 4)
    (hk : k ≤ bytes.length) (fuel : ℕ) (delivered : List String) {next : ℕ → PacketM Unit}
    {Q : Unit → PacketHandler → Prop} :
    Triple (At (bytes.drop k) delivered) (do
        let size ← readSize fuel (bytes.take k)
        readSizedPacket wire fuel size []
        let size ← unpack ((bytes.take k).take 4)
        next size) Q (Halts stop (delivered ++ texts) (fuel ≤ bytes.length)) := by
  have hbytes : bytes.take k ++ bytes.drop k = bytes := List.take_append_drop _ _
  have hlength : (bytes.take k).length = k := List.length_take_of_le hk
  have hgives : Gives (do let size ← readSize fuel (bytes.take k); readSizedPacket wire fuel size [])
    (wire.packet (bytes.take k ++ bytes.drop k)) fuel (bytes.take k ++ bytes.drop k).length (bytes.drop k)
    delivered := packet_spec fuel (bytes.take k) delivered (by omega)
  rw [hbytes] at hgives
  rw [← bind_assoc]
  cases hreads with
  | stops hpacket =>
      rw [hpacket] at hgives
      exact (hgives.halts id).bind fun _ _ hno => hno.elim
  | next _ hout => exact absurd hout (by omega)
  | torn hpacket _ _ =>
      rw [hpacket] at hgives
      refine (hgives.passes id).bind fun _ => ?_
      have hunpacked : ((bytes.take k).take 4).length ≠ 4 := by
        rw [List.length_take, hlength]
        omega
      unfold unpack
      rw [if_neg hunpacked]
      refine Triple.bind (Q := fun _ _ => False) (Triple.refused _ fun h hat => ?_) fun _ _ hno => hno.elim
      exact .inl ⟨rfl, hat.delivered⟩

/-- The body of the packet goes on after what arrived with the line. -/
theorem readRemainder_part {stop : Option Stop} (hreads : Reads wire k bytes texts stop) (hfour : 4 ≤ k)
    (hk : k ≤ bytes.length) (hpart : k - 4 ≤ number (bytes.take 4)) (fuel : ℕ) (delivered : List String) :
    Triple (At (bytes.drop k) delivered)
      (readSizedPacket wire fuel (number (bytes.take 4)) ((bytes.drop 4).take (k - 4)))
      (fun _ => Leaves wire bytes texts delivered stop) (Halts stop (delivered ++ texts) (fuel ≤ bytes.length)) := by
  have hafter : (bytes.drop 4).take (k - 4) ++ bytes.drop k = bytes.drop 4 := by
    have hdrop : bytes.drop k = (bytes.drop 4).drop (k - 4) := by
      rw [List.drop_drop]
      congr 1
      omega
    rw [hdrop, List.take_append_drop]
  have hgives : Gives (readSizedPacket wire fuel (number (bytes.take 4)) ((bytes.drop 4).take (k - 4)))
    (wire.sized (number (bytes.take 4)) ((bytes.drop 4).take (k - 4) ++ bytes.drop k)) fuel
    ((bytes.drop 4).take (k - 4) ++ bytes.drop k).length (bytes.drop k) delivered := by
    apply sized_spec
    rw [List.length_take]
    omega
  have hsized : wire.packet bytes = wire.sized (number (bytes.take 4)) (bytes.drop 4) :=
    if_neg (not_lt.mpr (hfour.trans hk))
  rw [hafter, ← hsized, List.length_drop] at hgives
  cases hreads with
  | stops hpacket =>
      rw [hpacket] at hgives
      exact (hgives.halts (by omega)).weaken fun _ _ hno => hno.elim
  | torn _ _ hless => exact absurd hless (by omega)
  | @next _ _ rest before later _ hpacket _ hlater =>
      rw [hpacket] at hgives
      have hshorter := wire.packet_shorter hpacket
      have hover : k - (bytes.length - rest.length) = 0 := by omega
      rw [hover] at hlater
      exact (hgives.passes (by omega)).weaken fun _ h hat => ⟨rest, before, later, hlater, rfl, by omega, hat⟩

/-- The packet arrived whole with the line: the next one is read from what is left of that. -/
theorem readRemainder_whole {stop : Option Stop} (hreads : Reads wire k bytes texts stop) (hk : k ≤ bytes.length)
    (hsmall : k ≤ MAX_ALLOWED_PACKET_SIZE) (hwhole : number (bytes.take 4) < k - 4) {short : Prop} {next : PacketM Unit}
    (delivered : List String)
    (hnext : ∀ before rest later, wire.packet bytes = (before, .ok rest) →
      Reads wire (k - (bytes.length - rest.length)) rest later stop →
      Triple (At (rest.drop (k - (bytes.length - rest.length))) (delivered ++ before)) next
        (fun _ => Leaves wire rest later (delivered ++ before) stop) (Halts stop (delivered ++ before ++ later) short)) :
    Triple (At (bytes.drop k) delivered) (do
        onPacketData wire ((bytes.drop 4).take (number (bytes.take 4)))
        next) (fun _ => Leaves wire bytes texts delivered stop) (Halts stop (delivered ++ texts) short) := by
  have hresult := wire.packet_whole (show 4 ≤ bytes.length by omega) (by omega) (by omega)
  have haccept : Triple (At (bytes.drop k) delivered)
      (onPacketData wire ((bytes.drop 4).take (number (bytes.take 4)))) _ _ := onPacketData_spec _ delivered
  generalize wire.accept ((bytes.drop 4).take (number (bytes.take 4))) = accepted at hresult haccept
  obtain ⟨before, raised⟩ := accepted
  cases hreads with
  | torn _ _ hless => exact absurd hless (by omega)
  | stops hpacket =>
      rw [hresult] at hpacket
      cases raised with
      | none => cases hpacket
      | some stop =>
          cases hpacket
          refine (haccept.weakenError fun e h hend => ?_).bind fun _ h hend => ?_
          · obtain ⟨⟨_, hstop, rfl⟩, hdelivered⟩ := hend
            cases hstop
            exact .inl ⟨rfl, hdelivered⟩
          · cases hend.1
  | @next _ _ rest before' later _ hpacket _ hlater =>
      have hpacket' := hpacket
      rw [hresult] at hpacket'
      cases raised with
      | some stop => cases hpacket'
      | none =>
          have hbefore : before = before' := congrArg Prod.fst hpacket'
          subst hbefore
          have hshorter := wire.packet_shorter hpacket
          have hleft : bytes.drop k = rest.drop (k - (bytes.length - rest.length)) := by
            obtain ⟨_, _, _, hrest, _⟩ := wire.packet_ok hpacket
            rw [hrest, List.drop_drop, ← hrest]
            congr 1
            omega
          refine (haccept.weakenError fun e h hend => ?_).bind fun _ => ?_
          · obtain ⟨⟨_, hstop, _⟩, _⟩ := hend
            cases hstop
          · apply Triple.assume
            intro _
            rw [hleft, ← List.append_assoc]
            exact (hnext _ rest later hpacket hlater).weaken fun _ h hleaves => hleaves.after (by omega)

/-- The loop over the bytes that arrived with the line. -/
theorem readRemainder_spec {stop : Option Stop} (hreads : Reads wire k bytes texts stop) (hk : k ≤ bytes.length)
    (hsmall : k ≤ MAX_ALLOWED_PACKET_SIZE) (fuel : ℕ) (delivered : List String) :
    Triple (At (bytes.drop k) delivered) (readRemainder wire fuel (bytes.take k))
      (fun _ => Leaves wire bytes texts delivered stop) (Halts stop (delivered ++ texts) (fuel ≤ bytes.length + 4)) := by
  induction fuel generalizing k bytes texts delivered with
  | zero => exact Triple.refused _ fun _ _ => .refused (Nat.zero_le _)
  | succ fuel ih =>
      unfold readRemainder
      have hlength : (bytes.take k).length = k := List.length_take_of_le hk
      by_cases hzero : k = 0
      · subst hzero
        rw [if_pos (List.take_zero)]
        refine Triple.ret _ fun h hat => ⟨bytes, [], texts, hreads, rfl, le_rfl, ?_⟩
        rw [List.append_nil]
        exact hat
      have hsome : bytes.take k ≠ [] := by
        intro hnil
        rw [hnil, List.length_nil] at hlength
        exact hzero hlength.symm
      rw [if_neg hsome]
      dsimp only
      rw [hlength]
      by_cases hfew : k < 4
      · rw [if_pos hfew]
        refine (readRemainder_torn hreads (Nat.pos_of_ne_zero hzero) hfew hk fuel delivered).weakenError fun e h hend => ?_
        exact hend.imp_right fun hend => ⟨hend.1, hend.2.imp_right fun hfuel => by omega⟩
      rw [if_neg hfew]
      have hfour : 4 ≤ k := not_lt.mp hfew
      have hunpack : (unpack ((bytes.take k).take 4) : PacketM ℕ) = pure (number (bytes.take 4)) := by
        unfold unpack
        rw [List.take_take, min_eq_left hfour, if_pos (List.length_take_of_le (hfour.trans hk))]
      rw [hunpack, pure_bind, List.drop_take, List.length_take, List.length_drop, min_eq_left (by omega)]
      by_cases hpart : k - 4 ≤ number (bytes.take 4)
      · rw [if_pos hpart]
        refine (readRemainder_part hreads hfour hk hpart fuel delivered).weakenError fun e h hend => ?_
        exact hend.imp_right fun hend => ⟨hend.1, hend.2.imp_right fun hfuel => by omega⟩
      · rw [if_neg hpart, List.take_take, min_eq_left (by omega)]
        refine readRemainder_whole hreads hk hsmall (by omega) delivered fun before rest later hpacket hlater => ?_
        have hshorter := wire.packet_shorter hpacket
        have hrest : ((bytes.drop 4).take (k - 4)).drop (number (bytes.take 4)) =
            rest.take (k - (bytes.length - rest.length)) := by
          obtain ⟨_, _, _, hrest, _⟩ := wire.packet_ok hpacket
          rw [List.drop_take, List.drop_drop, ← hrest]
          congr 1
          omega
        rw [hrest]
        refine (ih hlater (by omega) (by omega) _).weakenError fun e h hend => hend.imp_right fun hend => ?_
        exact ⟨hend.1, hend.2.imp_right fun hfuel => by omega⟩

end Bridge
end CpcJudge
