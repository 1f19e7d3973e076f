import PhxPaxos.Model.BaseMsg

/-!
# Packing and unpacking a base message

`UnPackBaseMsg` finds the header and the body that `PackBaseMsg` packed, and on any other buffer of more than six bytes it
either fails or describes a range of the buffer; nothing is read outside of the buffer and no `size_t` wraps
(`baseMsg_codec`).
-/

namespace PhxPaxos

open Files

/-! ## Memory -/

section Memory

variable {buffer : Bytes} {pos len a b n : Nat}

@[simp] theorem ok_bind {X Y : Type} (x : X) (f : X → Except Fault Y) : (Except.ok x >>= f) = f x := rfl

theorem readAt_ok (h : pos + len ≤ buffer.length) : readAt buffer pos len = .ok ((buffer.drop pos).take len) := if_pos h

theorem sizeAdd_ok (h : a + b < 2 ^ 64) : sizeAdd a b = .ok (a + b) := if_pos h

theorem sizeSub_ok (h : b ≤ a) : sizeSub a b = .ok (a - b) := if_pos h

theorem toInt_toNat_le (n : Nat) : (toInt n).toNat ≤ n := by
  have h : (n : Int).bmod (2 ^ 32) ≤ n := by
    rw [Int.bmod_def]
    omega
  unfold toInt
  omega

theorem toInt_of_lt (h : n < 2 ^ 31) : toInt n = n := by
  unfold toInt
  rw [Int.bmod_def]
  omega

end Memory

/-! ## Unpacking any buffer -/

section UnPack

variable {C : HeaderCodec} {buffer : Bytes} {header : Header} {bodyStartPos start len : Nat}

/-- What `UnPackBaseMsg` finds: the body is followed by the checksum from version one on, and by nothing before. -/
structure Unpacked (buffer : Bytes) (header : Header) (start len : Nat) : Prop where
  le : start + len ≤ buffer.length
  checksum : header.version ≥ 1 → start + len + checksumLen = buffer.length ∧
    decodeLE (buffer.drop (start + len)) = (netCrc32 buffer (toInt (start + len))).toNat
  noChecksum : ¬ header.version ≥ 1 → start + len = buffer.length

theorem checkChecksum_short (hpos : bodyStartPos < 2 ^ 63) (h : buffer.length < bodyStartPos + checksumLen) :
    checkChecksum buffer header bodyStartPos = .ok none := by
  unfold checkChecksum
  rw [sizeAdd_ok (by unfold checksumLen; omega)]
  exact if_pos h

/-- A buffer with room for the checksum: it is compared, and nothing wraps. -/
theorem checkChecksum_enough (hpos : bodyStartPos < 2 ^ 63) (h : bodyStartPos + checksumLen ≤ buffer.length) :
    checkChecksum buffer header bodyStartPos =
      .ok (if (netCrc32 buffer (toInt (buffer.length - checksumLen))).toNat ≠
          decodeLE (buffer.drop (buffer.length - checksumLen)) then none
        else some (header, bodyStartPos, buffer.length - checksumLen - bodyStartPos)) := by
  have hread : readAt buffer (buffer.length - checksumLen) checksumLen = .ok (buffer.drop (buffer.length - checksumLen)) := by
    rw [readAt_ok (by omega), List.take_of_length_le (by rw [List.length_drop]; omega)]
  unfold checkChecksum
  rw [sizeAdd_ok (by unfold checksumLen; omega), ok_bind, if_neg (by omega),
    sizeSub_ok (by omega : checksumLen ≤ buffer.length), ok_bind, sizeSub_ok (by omega), ok_bind, hread, ok_bind]
  split <;> rfl

/-- What is checked is a range, with the checksum behind it. -/
theorem checkChecksum_unpacked (buffer : Bytes) (header : Header) (hpos : bodyStartPos < 2 ^ 63) :
    ∃ r, checkChecksum buffer header bodyStartPos = .ok r ∧
      ∀ h start len, r = some (h, start, len) → h = header ∧ start + len + checksumLen = buffer.length ∧
        decodeLE (buffer.drop (start + len)) = (netCrc32 buffer (toInt (start + len))).toNat := by
  by_cases h : bodyStartPos + checksumLen ≤ buffer.length
  · refine ⟨_, checkChecksum_enough hpos h, ?_⟩
    intro h' start len hr
    have hend : bodyStartPos + (buffer.length - checksumLen - bodyStartPos) = buffer.length - checksumLen := by omega
    split at hr
    · cases hr
    · rename_i heq
      cases hr
      rw [hend]
      exact ⟨rfl, by omega, (not_not.mp heq).symm⟩
  · refine ⟨none, checkChecksum_short hpos (by omega), ?_⟩
    intro h' start len hr
    cases hr

/-- The header length of the buffer. -/
def headerLenOf (buffer : Bytes) : Nat := decodeLE ((buffer.drop groupIdxLen).take headLenLen)

theorem headerLenOf_lt (buffer : Bytes) : headerLenOf buffer < 65536 := by
  have hlt := decodeLE_lt ((buffer.drop groupIdxLen).take headLenLen)
  have htwo : ((buffer.drop groupIdxLen).take headLenLen).length ≤ 2 := by
    rw [List.length_take]
    exact Nat.min_le_left _ _
  have hpow : 256 ^ ((buffer.drop groupIdxLen).take headLenLen).length ≤ 256 ^ 2 := Nat.pow_le_pow_right (by omega) htwo
  unfold headerLenOf
  omega

/-- The function without the checks that do not fail. -/
theorem unPackBaseMsg_eq (h : 6 ≤ buffer.length) (hpos : bodyStartPos = groupIdxLen + headLenLen + headerLenOf buffer) :
    unPackBaseMsg C buffer =
      if bodyStartPos > buffer.length then .ok none
      else match C.parse ((buffer.drop (groupIdxLen + headLenLen)).take (headerLenOf buffer)) with
        | none => .ok none
        | some header =>
          if header.version ≥ 1 then checkChecksum buffer header bodyStartPos
          else .ok (some (header, bodyStartPos, buffer.length - bodyStartPos)) := by
  have hlt := headerLenOf_lt buffer
  unfold unPackBaseMsg
  rw [readAt_ok (by unfold groupIdxLen headLenLen; omega), ok_bind]
  change (sizeAdd (groupIdxLen + headLenLen) (headerLenOf buffer) >>= fun _ => _) = _
  rw [sizeAdd_ok (by unfold groupIdxLen headLenLen; omega), ok_bind, ← hpos]
  by_cases hshort : bodyStartPos > buffer.length
  · rw [if_pos hshort, if_pos hshort]
    rfl
  rw [if_neg hshort, if_neg hshort]
  change (readAt buffer (groupIdxLen + headLenLen) (headerLenOf buffer) >>= fun _ => _) = _
  rw [readAt_ok (by omega), ok_bind, sizeSub_ok (by omega)]
  rfl

/-- **Unpacking never leaves the buffer and never wraps**, and what it finds is a range. -/
theorem unPackBaseMsg_unpacked (C : HeaderCodec) (h : 6 ≤ buffer.length) :
    ∃ r, unPackBaseMsg C buffer = .ok r ∧ ∀ header start len, r = some (header, start, len) →
      Unpacked buffer header start len := by
  have hlt := headerLenOf_lt buffer
  rw [unPackBaseMsg_eq h rfl]
  by_cases hshort : groupIdxLen + headLenLen + headerLenOf buffer > buffer.length
  · rw [if_pos hshort]
    exact ⟨none, rfl, fun _ _ _ hr => by cases hr⟩
  rw [if_neg hshort]
  cases C.parse ((buffer.drop (groupIdxLen + headLenLen)).take (headerLenOf buffer)) with
  | none => exact ⟨none, rfl, fun _ _ _ hr => by cases hr⟩
  | some header =>
    by_cases hv : header.version ≥ 1
    · obtain ⟨r, hr, hspec⟩ := checkChecksum_unpacked buffer header
        (show groupIdxLen + headLenLen + headerLenOf buffer < 2 ^ 63 by unfold groupIdxLen headLenLen; omega)
      simp only [if_pos hv]
      refine ⟨r, hr, fun header' start len hsome => ?_⟩
      obtain ⟨rfl, hend, hsum⟩ := hspec header' start len hsome
      exact ⟨by omega, fun _ => ⟨hend, hsum⟩, fun hn => absurd hv hn⟩
    · simp only [if_neg hv]
      refine ⟨_, rfl, fun header' start len hsome => ?_⟩
      cases hsome
      exact ⟨by omega, fun h => absurd h hv, fun _ => by omega⟩

end UnPack

/-! ## Unpacking what was packed -/

section Pack

variable {C : HeaderCodec} {groupIdx : Int32} {gid : UInt64} {body : Bytes} {cmd : Int32}

/-- Where the body lies in a packed buffer. -/
def packedBodyPos (C : HeaderCodec) (gid : UInt64) (cmd : Int32) : Nat :=
  groupIdxLen + headLenLen + (C.serialize (packedHeader gid cmd)).length

theorem packBaseMsgPrefix_length (C : HeaderCodec) (groupIdx : Int32) (gid : UInt64) (body : Bytes) (cmd : Int32) :
    (packBaseMsgPrefix C groupIdx gid body cmd).length = packedBodyPos C gid cmd + body.length := by
  simp only [packBaseMsgPrefix, packedBodyPos, List.length_append, encodeLE_length]

theorem packBaseMsg_length (C : HeaderCodec) (groupIdx : Int32) (gid : UInt64) (body : Bytes) (cmd : Int32) :
    (packBaseMsg C groupIdx gid body cmd).length = packedBodyPos C gid cmd + body.length + checksumLen := by
  rw [packBaseMsg, List.length_append, packBaseMsgPrefix_length, encodeLE_length]

theorem packBaseMsg_body : ((packBaseMsg C groupIdx gid body cmd).drop (packedBodyPos C gid cmd)).take body.length = body := by
  have hpos : (encodeLE groupIdxLen groupIdx.toUInt32.toNat ++
      encodeLE headLenLen (C.serialize (packedHeader gid cmd)).length ++
      C.serialize (packedHeader gid cmd)).length = packedBodyPos C gid cmd := by
    simp only [packedBodyPos, List.length_append, encodeLE_length]
  rw [packBaseMsg, packBaseMsgPrefix, List.append_assoc, ← hpos, List.drop_left, List.take_left]

theorem netCrc32_append {p q : Bytes} {size : Int} (h : size.toNat ≤ p.length) :
    netCrc32 (p ++ q) size = netCrc32 p size := by
  unfold netCrc32
  rw [List.take_append_of_le_length h]

/-- The checksum that was packed is the one that is computed. -/
theorem checkChecksum_packBaseMsg (hC : C.Faithful) {header : Header} :
    checkChecksum (packBaseMsg C groupIdx gid body cmd) header (packedBodyPos C gid cmd) =
      .ok (some (header, packedBodyPos C gid cmd, body.length)) := by
  have hpos : packedBodyPos C gid cmd < 2 ^ 63 := by
    have := hC.length_le (packedHeader gid cmd)
    unfold packedBodyPos groupIdxLen headLenLen
    omega
  have hprefix := packBaseMsgPrefix_length C groupIdx gid body cmd
  have hlen := packBaseMsg_length C groupIdx gid body cmd
  rw [checkChecksum_enough hpos (by omega)]
  have hend : (packBaseMsg C groupIdx gid body cmd).length - checksumLen =
      (packBaseMsgPrefix C groupIdx gid body cmd).length := by omega
  have hbody : (packBaseMsgPrefix C groupIdx gid body cmd).length - packedBodyPos C gid cmd = body.length := by omega
  rw [hend, hbody, packBaseMsg, List.drop_left, decodeLE_encodeLE, netCrc32_append (toInt_toNat_le _), if_neg (by simp)]
  exact UInt32.toNat_lt _

/-- **Round trip**: the header and the range of the body. -/
theorem unPackBaseMsg_packBaseMsg (hC : C.Faithful) :
    unPackBaseMsg C (packBaseMsg C groupIdx gid body cmd) =
      .ok (some (packedHeader gid cmd, packedBodyPos C gid cmd, body.length)) := by
  have hlen := packBaseMsg_length C groupIdx gid body cmd
  have hshort := hC.length_le (packedHeader gid cmd)
  obtain ⟨rest, hrest⟩ : ∃ rest, packBaseMsg C groupIdx gid body cmd =
      encodeLE groupIdxLen groupIdx.toUInt32.toNat ++
        (encodeLE headLenLen (C.serialize (packedHeader gid cmd)).length ++ (C.serialize (packedHeader gid cmd) ++ rest)) := by
    simp only [packBaseMsg, packBaseMsgPrefix, List.append_assoc]
    exact ⟨_, rfl⟩
  have hheader : headerLenOf (packBaseMsg C groupIdx gid body cmd) = (C.serialize (packedHeader gid cmd)).length := by
    unfold headerLenOf
    rw [hrest, List.drop_left' (encodeLE_length _ _), List.take_left' (encodeLE_length _ _), decodeLE_encodeLE]
    unfold headLenLen
    omega
  have hread : ((packBaseMsg C groupIdx gid body cmd).drop (groupIdxLen + headLenLen)).take
      (C.serialize (packedHeader gid cmd)).length = C.serialize (packedHeader gid cmd) := by
    rw [hrest, ← List.drop_drop, List.drop_left' (encodeLE_length _ _), List.drop_left' (encodeLE_length _ _),
      List.take_left]
  have hpos : packedBodyPos C gid cmd = groupIdxLen + headLenLen + headerLenOf (packBaseMsg C groupIdx gid body cmd) := by
    rw [hheader]
    rfl
  rw [unPackBaseMsg_eq (by rw [hlen]; unfold packedBodyPos groupIdxLen headLenLen; omega) hpos, if_neg (by omega), hheader, hread, hC.parse_serialize]
  exact checkChecksum_packBaseMsg hC

end Pack

/-! ## Receiving -/

section Receive

variable {M K : Type} {buffer : Bytes}

/-- The bytes that are parsed lie in the range. -/
theorem parseMsg_parsed {X : Type} (parse : Bytes → Option X) (gid : UInt64) (header : Header)
    {accept : Nat → Nat → X → Received M K} {start len : Nat} (haccept : ∀ pos size x, (accept pos size x).parsed = some (pos, size))
    (h : start + len ≤ buffer.length) :
    ∃ r, parseMsg parse accept gid buffer header start len = .ok r ∧ r.parsed = some (start, (toInt len).toNat) := by
  have hle := toInt_toNat_le len
  unfold parseMsg
  change ∃ r, (readAt buffer start (toInt len).toNat >>= fun _ => _) = _ ∧ _
  rw [readAt_ok (by omega), ok_bind]
  cases parse ((buffer.drop start).take (toInt len).toNat) with
  | none => exact ⟨_, rfl, rfl⟩
  | some x =>
    by_cases hcheck : receiveMsgHeaderCheck gid header = true
    · exact ⟨_, if_pos hcheck, haccept _ _ _⟩
    · exact ⟨_, if_neg hcheck, rfl⟩

/-- **Receiving** reads only the range that `UnPackBaseMsg` found. -/
theorem onReceive_parsed (C : Codecs M K) (gid : UInt64) (mode : Bool) (buffer : Bytes) :
    ∃ r, C.onReceive gid mode buffer = .ok r ∧ ∀ pos size, r.parsed = some (pos, size) →
      ∃ header len, unPackBaseMsg C.header buffer = .ok (some (header, pos, len)) ∧ size ≤ len := by
  unfold Codecs.onReceive
  by_cases hsix : buffer.length ≤ 6
  · rw [if_pos hsix]
    exact ⟨_, rfl, fun _ _ h => by cases h⟩
  rw [if_neg hsix]
  obtain ⟨r, hr, hspec⟩ := unPackBaseMsg_unpacked C.header (show 6 ≤ buffer.length by omega)
  rw [hr, ok_bind]
  obtain _ | ⟨header, start, len⟩ := r
  · exact ⟨_, rfl, fun _ _ h => by cases h⟩
  have hle := (hspec header start len rfl).le
  have hskip : ∃ r : Received M K, Except.ok Received.skipped = (Except.ok r : Except Fault (Received M K)) ∧
      ∀ pos size, r.parsed = some (pos, size) → ∃ header' len',
        (Except.ok (some (header, start, len)) : Except Fault (Option (Header × Nat × Nat))) =
          .ok (some (header', pos, len')) ∧ size ≤ len' := ⟨_, rfl, fun _ _ h => by cases h⟩
  have hparse : ∀ {X : Type} (parse : Bytes → Option X) (accept : Nat → Nat → X → Received M K),
      (∀ pos size x, (accept pos size x).parsed = some (pos, size)) →
      ∃ r, parseMsg parse accept gid buffer header start len = .ok r ∧ ∀ pos size, r.parsed = some (pos, size) →
        ∃ header' len', (Except.ok (some (header, start, len)) : Except Fault (Option (Header × Nat × Nat))) =
          .ok (some (header', pos, len')) ∧ size ≤ len' := by
    intro X parse accept haccept
    obtain ⟨r, hr, hp⟩ := parseMsg_parsed parse gid header haccept hle
    refine ⟨r, hr, fun pos size h => ⟨header, len, ?_⟩⟩
    obtain ⟨rfl, rfl⟩ : start = pos ∧ (toInt len).toNat = size := by simpa [hp] using h
    exact ⟨rfl, toInt_toNat_le len⟩
  change ∃ r, (if header.cmdID = msgCmdPaxosMsg then _ else _) = Except.ok r ∧ _
  split_ifs
  · exact hskip
  · exact hparse _ _ fun _ _ _ => rfl
  · exact hparse _ _ fun _ _ _ => rfl
  · exact hskip

end Receive

/-! ## The codec in the wire format -/

section Protobuf

/-- An `int32` is sign-extended in a varint. -/
theorem toInt32_varint (x : Int32) : (UInt64.ofNat x.toInt64.toUInt64.toNat).toInt64.toInt32 = x := by
  rw [UInt64.ofNat_toNat, Int64.toInt64_toUInt64, Int32.toInt32_toInt64]

theorem protobufHeader_parse_serialize (h : Header) : protobufHeader.parse (protobufHeader.serialize h) = some h := by
  show (Wire.decode (Wire.encode h.fields)).bind Header.ofFields = some h
  have hfields : Header.ofFields h.fields = some
      { gid := UInt64.ofNat h.gid.toNat, rid := UInt64.ofNat h.rid.toNat,
        cmdID := (UInt64.ofNat h.cmdID.toInt64.toUInt64.toNat).toInt64.toInt32,
        version := (UInt64.ofNat h.version.toInt64.toUInt64.toNat).toInt64.toInt32 } := rfl
  rw [Wire.decode_encode, Option.bind_some, hfields, UInt64.ofNat_toNat, UInt64.ofNat_toNat, toInt32_varint, toInt32_varint]

theorem length_encode_varint_le {number : Nat} (hnumber : number < 16) (n : UInt64) (fs : List Wire.Field) :
    (Wire.encode ((number, .varint n.toNat) :: fs)).length ≤ 11 + (Wire.encode fs).length := by
  have htag : (Wire.encodeVarint (8 * number)).length ≤ 1 := Wire.length_encodeVarint_le (by omega) (by omega)
  have hn : (Wire.encodeVarint n.toNat).length ≤ 10 :=
    Wire.length_encodeVarint_le (by omega) (Nat.lt_of_lt_of_le n.toNat_lt (by omega))
  rw [Wire.encode_cons, List.length_append, Wire.length_encodeField_varint]
  omega

theorem protobufHeader_faithful : protobufHeader.Faithful where
  parse_serialize := protobufHeader_parse_serialize
  length_le h := by
    have h₁ := length_encode_varint_le (show 1 < 16 by omega) h.gid
    have h₂ := length_encode_varint_le (show 2 < 16 by omega) h.rid
    have h₃ := length_encode_varint_le (show 3 < 16 by omega) h.cmdID.toInt64.toUInt64
    have h₄ := length_encode_varint_le (show 4 < 16 by omega) h.version.toInt64.toUInt64 []
    show (Wire.encode h.fields).length ≤ 44
    unfold Header.fields
    refine Nat.le_trans (h₁ _) ?_
    have := h₂ [(3, .varint h.cmdID.toInt64.toUInt64.toNat), (4, .varint h.version.toInt64.toUInt64.toNat)]
    have := h₃ [(4, .varint h.version.toInt64.toUInt64.toNat)]
    simp only [Wire.encode_nil, List.length_nil] at h₄
    omega

/-- Protobuf, with a checkpoint message as its fields. -/
def protobufCodecs : Codecs PaxosMsg (List Wire.Field) where
  header := protobufHeader
  parsePaxosMsg buffer := (Wire.decode buffer).bind PaxosMsg.ofFields
  parseCheckpointMsg := Wire.decode

end Protobuf

/-- **The codec of base messages.** -/
theorem baseMsg_codec {M K : Type} (C : Codecs M K) (hC : C.header.Faithful) :
    (∀ groupIdx gid body cmd, ∃ start len,
      unPackBaseMsg C.header (packBaseMsg C.header groupIdx gid body cmd) = .ok (some (packedHeader gid cmd, start, len)) ∧
        ((packBaseMsg C.header groupIdx gid body cmd).drop start).take len = body) ∧
    ∀ buffer, 6 < buffer.length →
      (∃ r, unPackBaseMsg C.header buffer = .ok r) ∧
      (∀ header start len, unPackBaseMsg C.header buffer = .ok (some (header, start, len)) →
        Unpacked buffer header start len) ∧
      ∀ gid mode, ∃ r, C.onReceive gid mode buffer = .ok r ∧ ∀ pos size, r.parsed = some (pos, size) →
        ∃ header len, unPackBaseMsg C.header buffer = .ok (some (header, pos, len)) ∧ size ≤ len := by
  refine ⟨fun groupIdx gid body cmd => ⟨_, _, unPackBaseMsg_packBaseMsg hC, packBaseMsg_body⟩, fun buffer hlen => ?_⟩
  obtain ⟨r, hr, hspec⟩ := unPackBaseMsg_unpacked C.header (Nat.le_of_lt hlen)
  refine ⟨⟨r, hr⟩, fun header start len h => ?_, fun gid mode => onReceive_parsed C gid mode buffer⟩
  rw [hr] at h
  exact hspec header start len (Except.ok.inj h)

theorem baseMsg_codec_protobuf :
    ∃ start len, unPackBaseMsg protobufHeader (packBaseMsg protobufHeader 3 17 [8, 1] msgCmdPaxosMsg) =
        .ok (some (packedHeader 17 msgCmdPaxosMsg, start, len)) ∧
      ((packBaseMsg protobufHeader 3 17 [8, 1] msgCmdPaxosMsg).drop start).take len = [8, 1] :=
  (baseMsg_codec protobufCodecs protobufHeader_faithful).1 3 17 [8, 1] msgCmdPaxosMsg

end PhxPaxos
