import LibraryRegistry.Rpc.Frame

/-!
# Laws of frames

A written frame is read back with what follows it, so a body of written frames gives its messages in
their order. A frame that is cut off anywhere gives no message, and neither does one with a flag.

* `nextFrame_head`, `nextFrame_encodeFrame` — one frame
* `nextFrame_of_isPrefix`, `nextFrame_flaggedFrame`, `nextFrame_encodeFrame_of_lt` — one that is cut
  off, one with a flag, and one that is too long
* `readMessages_encodeFrame`, `readMessage_encodeFrame` — a body that begins with a frame, a body of
  one frame
* `broken_encodeFrame`, `broken_flaggedFrame`, `broken_of_isPrefix` — bodies that cannot be read
-/

namespace LibraryRegistry.Rpc

/-- The four bytes of a length tell the length. -/
theorem bigEndian_value {n : Nat} (h : n < frameBound) :
    (((UInt8.ofNat (n / 2 ^ 24)).toNat * 256 + (UInt8.ofNat (n / 2 ^ 16)).toNat) * 256
      + (UInt8.ofNat (n / 2 ^ 8)).toNat) * 256 + (UInt8.ofNat n).toNat = n := by
  have hlt : n < 4294967296 := h
  simp only [UInt8.toNat_ofNat']
  omega

/-- What is read behind the head of a frame. -/
theorem nextFrame_head {n : Nat} (h : n ≤ maxMessageBytes) (rest : List UInt8) :
    nextFrame (0 :: (bigEndian n ++ rest)) =
      if n ≤ rest.length then .ok (.message (rest.take n) (rest.drop n))
      else if rest = [] then .ok .finished
      else .error .brokenOff := by
  have hlt : n < frameBound := Nat.lt_of_le_of_lt h (by decide)
  show nextFrame (0 :: UInt8.ofNat (n / 2 ^ 24) :: UInt8.ofNat (n / 2 ^ 16)
    :: UInt8.ofNat (n / 2 ^ 8) :: UInt8.ofNat n :: rest) = _
  rw [nextFrame, if_neg (by decide), if_neg (by decide)]
  simp only [bigEndian_value hlt]
  rw [if_neg (Nat.not_lt.2 h)]

/-- A written frame that is too long to be read is refused. -/
theorem nextFrame_encodeFrame_of_lt {message : List UInt8} (h : maxMessageBytes < message.length)
    (hlt : message.length < frameBound) :
    nextFrame (encodeFrame message) = .error (.tooLong message.length) := by
  show nextFrame (0 :: UInt8.ofNat (message.length / 2 ^ 24)
    :: UInt8.ofNat (message.length / 2 ^ 16) :: UInt8.ofNat (message.length / 2 ^ 8)
    :: UInt8.ofNat message.length :: message) = _
  rw [nextFrame, if_neg (by decide), if_neg (by decide)]
  simp only [bigEndian_value hlt]
  rw [if_pos h]

/-- **A written frame is read back.** -/
theorem nextFrame_encodeFrame {message : List UInt8} (h : message.length ≤ maxMessageBytes)
    (rest : List UInt8) :
    nextFrame (encodeFrame message ++ rest) = .ok (.message message rest) := by
  have hrest : message.length ≤ (message ++ rest).length := by
    rw [List.length_append]
    omega
  rw [encodeFrame, List.cons_append, List.append_assoc, nextFrame_head h, if_pos hrest,
    List.take_left, List.drop_left]

/-- **A frame that is cut off gives no message.** Bytes are left over unless there are none, or none
behind the head of the frame. -/
theorem nextFrame_of_isPrefix {message cut : List UInt8} (h : message.length ≤ maxMessageBytes)
    (hcut : cut <+: encodeFrame message) (hne : cut ≠ encodeFrame message) :
    nextFrame cut = if cut = [] ∨ cut.length = 5 then .ok .finished else .error .brokenOff := by
  have hbytes : encodeFrame message = 0 :: UInt8.ofNat (message.length / 2 ^ 24)
      :: UInt8.ofNat (message.length / 2 ^ 16) :: UInt8.ofNat (message.length / 2 ^ 8)
      :: UInt8.ofNat message.length :: message := rfl
  match cut with
  | [] => rfl
  | [_] | [_, _] | [_, _, _] | [_, _, _, _] => rfl
  | _ :: _ :: _ :: _ :: _ :: rest =>
    rw [hbytes] at hcut hne
    simp only [List.cons_prefix_cons] at hcut
    obtain ⟨rfl, rfl, rfl, rfl, rfl, hrest⟩ := hcut
    have hlt : rest.length < message.length := by
      refine Nat.lt_of_le_of_ne hrest.length_le fun heq => hne ?_
      rw [hrest.eq_of_length heq]
    have hhead := nextFrame_head h rest
    rw [if_neg (Nat.not_le.2 hlt)] at hhead
    refine hhead.trans ?_
    simp [List.length_eq_zero_iff]

/-- A frame with any flag. -/
def flaggedFrame (flag : UInt8) (message : List UInt8) : List UInt8 :=
  flag :: (bigEndian message.length ++ message)

theorem nextFrame_flaggedFrame {flag : UInt8} (h : flag ≠ 0) (message : List UInt8) :
    nextFrame (flaggedFrame flag message)
      = .error (if flag = 1 then .compressed else .invalidFlag flag) := by
  show nextFrame (flag :: UInt8.ofNat (message.length / 2 ^ 24)
    :: UInt8.ofNat (message.length / 2 ^ 16) :: UInt8.ofNat (message.length / 2 ^ 8)
    :: UInt8.ofNat message.length :: message) = _
  rw [nextFrame]
  by_cases hone : flag = 1
  · rw [if_pos hone, if_pos hone]
  · rw [if_neg hone, if_neg hone, if_pos h]

section Messages

variable {α : Type} {direction : Direction} {decode : List UInt8 → Except Wire.DecodeError α}

theorem readMessages_of_fault {body : List UInt8} {fault : FrameFault}
    (h : nextFrame body = .error fault) :
    readMessages direction decode body = .error (fault.status direction) := by
  rw [readMessages]
  split
  · next hn =>
    cases h.symm.trans hn
    rfl
  · next hn => cases h.symm.trans hn
  · next hn => cases h.symm.trans hn

theorem readMessages_of_finished {body : List UInt8} (h : nextFrame body = .ok .finished) :
    readMessages direction decode body = .ok [] := by
  rw [readMessages]
  split
  · next hn => cases h.symm.trans hn
  · rfl
  · next hn => cases h.symm.trans hn

theorem readMessages_of_message {body bytes rest : List UInt8} {a : α}
    (h : nextFrame body = .ok (.message bytes rest)) (ha : decode bytes = .ok a) :
    readMessages direction decode body
      = (readMessages direction decode rest).map (a :: ·) := by
  rw [readMessages]
  split
  · next hn => cases h.symm.trans hn
  · next hn => cases h.symm.trans hn
  · next hn =>
    cases h.symm.trans hn
    simp only [ha]

theorem readMessages_of_undecodable {body bytes rest : List UInt8} {e : Wire.DecodeError}
    (h : nextFrame body = .ok (.message bytes rest)) (he : decode bytes = .error e) :
    readMessages direction decode body = .error ⟨.internal, e.message⟩ := by
  rw [readMessages]
  split
  · next hn => cases h.symm.trans hn
  · next hn => cases h.symm.trans hn
  · next hn =>
    cases h.symm.trans hn
    simp only [he]

/-- A written frame adds its message in front of those that follow. -/
theorem readMessages_encodeFrame {bytes : List UInt8} {a : α}
    (h : bytes.length ≤ maxMessageBytes) (ha : decode bytes = .ok a) (rest : List UInt8) :
    readMessages direction decode (encodeFrame bytes ++ rest)
      = (readMessages direction decode rest).map (a :: ·) :=
  readMessages_of_message (nextFrame_encodeFrame h rest) ha

theorem readMessages_encodeFrame_nil {bytes : List UInt8} {a : α}
    (h : bytes.length ≤ maxMessageBytes) (ha : decode bytes = .ok a) :
    readMessages direction decode (encodeFrame bytes) = .ok [a] := by
  have hnil : readMessages direction decode [] = .ok [] := readMessages_of_finished rfl
  have hf : readMessages direction decode (encodeFrame bytes ++ []) = _ :=
    readMessages_encodeFrame h ha []
  rw [List.append_nil, hnil] at hf
  exact hf

/-- **The message of a body of one frame is read back.** -/
theorem readMessage_encodeFrame {bytes : List UInt8} {a : α} {missing : String}
    (h : bytes.length ≤ maxMessageBytes) (ha : decode bytes = .ok a) :
    readMessage direction decode missing (encodeFrame bytes) = .ok a := by
  rw [readMessage, readMessages_encodeFrame_nil h ha]
  rfl

/-! ## Bodies that cannot be read -/

/-- Reading the messages of a body fails with the code INTERNAL, wherever the body comes. -/
def Broken (decode : List UInt8 → Except Wire.DecodeError α) (body : List UInt8) : Prop :=
  ∀ direction, ∃ complaint, readMessages direction decode body = .error ⟨.internal, complaint⟩

/-- A frame fails with the code INTERNAL unless it is too long. -/
theorem FrameFault.status_eq_internal {fault : FrameFault} (h : ∀ n, fault ≠ .tooLong n)
    (direction : Direction) : ∃ complaint, fault.status direction = ⟨.internal, complaint⟩ := by
  cases fault with
  | tooLong n => exact absurd rfl (h n)
  | _ => exact ⟨_, rfl⟩

theorem broken_of_fault {body : List UInt8} {fault : FrameFault}
    (h : nextFrame body = .error fault) (hlong : ∀ n, fault ≠ .tooLong n) :
    Broken decode body := by
  intro direction
  obtain ⟨complaint, hstatus⟩ := fault.status_eq_internal hlong direction
  exact ⟨complaint, (readMessages_of_fault h).trans (congrArg Except.error hstatus)⟩

/-- A body whose message cannot be decoded. -/
theorem broken_encodeFrame {bytes : List UInt8} {e : Wire.DecodeError}
    (h : bytes.length ≤ maxMessageBytes) (he : decode bytes = .error e) :
    Broken decode (encodeFrame bytes) := by
  intro direction
  have hframe := nextFrame_encodeFrame h []
  rw [List.append_nil] at hframe
  exact ⟨e.message, readMessages_of_undecodable hframe he⟩

/-- A body whose message is flagged. -/
theorem broken_flaggedFrame {flag : UInt8} (h : flag ≠ 0) (message : List UInt8) :
    Broken decode (flaggedFrame flag message) := by
  refine broken_of_fault (nextFrame_flaggedFrame h message) fun n => ?_
  split <;> nofun

/-- A body that ends in front of its message. -/
theorem readMessages_of_isPrefix {message cut : List UInt8} (h : message.length ≤ maxMessageBytes)
    (hcut : cut <+: encodeFrame message) (hne : cut ≠ encodeFrame message)
    (hleft : cut = [] ∨ cut.length = 5) : readMessages direction decode cut = .ok [] := by
  have hframe := nextFrame_of_isPrefix h hcut hne
  rw [if_pos hleft] at hframe
  exact readMessages_of_finished hframe

/-- A body that breaks off inside its message, or inside the head of it. -/
theorem broken_of_isPrefix {message cut : List UInt8} (h : message.length ≤ maxMessageBytes)
    (hcut : cut <+: encodeFrame message) (hne : cut ≠ encodeFrame message)
    (hleft : ¬ (cut = [] ∨ cut.length = 5)) : Broken decode cut := by
  have hframe := nextFrame_of_isPrefix h hcut hne
  rw [if_neg hleft] at hframe
  exact broken_of_fault hframe nofun

end Messages

end LibraryRegistry.Rpc
