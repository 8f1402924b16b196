import Neutrino.BackendProtocol
import Neutrino.Library.StreamCodec

/-! Frames as bytes: an eight-byte header of big-endian words, then the payload. -/

namespace Neutrino.BackendProtocol

open Checked StreamCodec

/-! Big-endian words. -/

def readU16 (first second : UInt8) : UInt16 := (first.toUInt16 <<< 8) ||| second.toUInt16

def readU32 (first second third fourth : UInt8) : UInt32 :=
  (first.toUInt32 <<< 24) ||| (second.toUInt32 <<< 16) ||| (third.toUInt32 <<< 8) |||
    fourth.toUInt32

def appendU16 (bytes : List UInt8) (value : UInt16) : List UInt8 :=
  bytes ++ [((value >>> 8) &&& 0xff).toUInt8, (value &&& 0xff).toUInt8]

def appendU32 (bytes : List UInt8) (value : UInt32) : List UInt8 :=
  bytes ++ [((value >>> 24) &&& 0xff).toUInt8, ((value >>> 16) &&& 0xff).toUInt8,
    ((value >>> 8) &&& 0xff).toUInt8, (value &&& 0xff).toUInt8]

theorem or_add {high low : Nat} (bits : Nat) (small : low < 2 ^ bits) :
    high * 2 ^ bits ||| low = high * 2 ^ bits + low := by
  rw [← Nat.shiftLeft_eq, Nat.shiftLeft_add_eq_or_of_lt small]

theorem toNat_readU16 (first second : UInt8) :
    (readU16 first second).toNat = first.toNat * 2 ^ 8 + second.toNat := by
  have high := first.toNat_lt
  have low := second.toNat_lt
  have shifted : (first.toUInt16 <<< 8).toNat = first.toNat * 2 ^ 8 := by
    simp [Nat.shiftLeft_eq]
    omega
  rw [readU16, UInt16.toNat_or, shifted, UInt8.toNat_toUInt16, or_add 8 low]

theorem toNat_readU32 (first second third fourth : UInt8) :
    (readU32 first second third fourth).toNat =
      first.toNat * 2 ^ 24 + second.toNat * 2 ^ 16 + third.toNat * 2 ^ 8 + fourth.toNat := by
  have highest := first.toNat_lt
  have higher := second.toNat_lt
  have lower := third.toNat_lt
  have lowest := fourth.toNat_lt
  have shifted24 : (first.toUInt32 <<< 24).toNat = first.toNat * 2 ^ 24 := by
    simp [Nat.shiftLeft_eq]
    omega
  have shifted16 : (second.toUInt32 <<< 16).toNat = second.toNat * 2 ^ 16 := by
    simp [Nat.shiftLeft_eq]
    omega
  have shifted8 : (third.toUInt32 <<< 8).toNat = third.toNat * 2 ^ 8 := by
    simp [Nat.shiftLeft_eq]
    omega
  have two : first.toNat * 2 ^ 24 ||| second.toNat * 2 ^ 16 =
      (first.toNat * 2 ^ 8 + second.toNat) * 2 ^ 16 := by
    rw [or_add 24 (by omega)]
    omega
  have three : (first.toNat * 2 ^ 8 + second.toNat) * 2 ^ 16 ||| third.toNat * 2 ^ 8 =
      ((first.toNat * 2 ^ 8 + second.toNat) * 2 ^ 8 + third.toNat) * 2 ^ 8 := by
    rw [or_add 16 (by omega)]
    omega
  rw [readU32, UInt32.toNat_or, UInt32.toNat_or, UInt32.toNat_or, shifted24, shifted16, shifted8,
    UInt8.toNat_toUInt32, two, three, or_add 8 lowest]
  omega

theorem toNat_byte16 (value shift : UInt16) (small : shift.toNat < 16) :
    ((value >>> shift) &&& 0xff).toUInt8.toNat = value.toNat / 2 ^ shift.toNat % 2 ^ 8 := by
  simp only [UInt16.toNat_toUInt8, UInt16.toNat_and, UInt16.toNat_shiftRight,
    Nat.shiftRight_eq_div_pow, Nat.mod_eq_of_lt small]
  rw [show (0xff : UInt16).toNat = 2 ^ 8 - 1 from rfl, Nat.and_two_pow_sub_one_eq_mod, Nat.mod_mod]

theorem toNat_byte32 (value shift : UInt32) (small : shift.toNat < 32) :
    ((value >>> shift) &&& 0xff).toUInt8.toNat = value.toNat / 2 ^ shift.toNat % 2 ^ 8 := by
  simp only [UInt32.toNat_toUInt8, UInt32.toNat_and, UInt32.toNat_shiftRight,
    Nat.shiftRight_eq_div_pow, Nat.mod_eq_of_lt small]
  rw [show (0xff : UInt32).toNat = 2 ^ 8 - 1 from rfl, Nat.and_two_pow_sub_one_eq_mod, Nat.mod_mod]

/-- Two bytes are those of a word exactly when the word is read from them. -/
theorem appendU16_eq (bytes : List UInt8) (value : UInt16) (first second : UInt8) :
    appendU16 bytes value = bytes ++ [first, second] ↔ readU16 first second = value := by
  have high := first.toNat_lt
  have low := second.toNat_lt
  have bound := value.toNat_lt
  have lowest := toNat_byte16 value 0 (by decide)
  have highest := toNat_byte16 value 8 (by decide)
  rw [show value >>> (0 : UInt16) = value by simp] at lowest
  simp only [appendU16, List.append_cancel_left_eq, List.cons.injEq, and_true,
    ← UInt8.toNat_inj, ← UInt16.toNat_inj, toNat_readU16, lowest, highest]
  simp only [show (0 : UInt16).toNat = 0 from rfl, show (8 : UInt16).toNat = 8 from rfl]
  omega

theorem appendU32_eq (bytes : List UInt8) (value : UInt32) (first second third fourth : UInt8) :
    appendU32 bytes value = bytes ++ [first, second, third, fourth] ↔
      readU32 first second third fourth = value := by
  have highest := first.toNat_lt
  have higher := second.toNat_lt
  have lower := third.toNat_lt
  have lowest := fourth.toNat_lt
  have bound := value.toNat_lt
  have byte0 := toNat_byte32 value 0 (by decide)
  have byte1 := toNat_byte32 value 8 (by decide)
  have byte2 := toNat_byte32 value 16 (by decide)
  have byte3 := toNat_byte32 value 24 (by decide)
  rw [show value >>> (0 : UInt32) = value by simp] at byte0
  simp only [appendU32, List.append_cancel_left_eq, List.cons.injEq, and_true,
    ← UInt8.toNat_inj, ← UInt32.toNat_inj, toNat_readU32, byte0, byte1, byte2, byte3]
  simp only [show (0 : UInt32).toNat = 0 from rfl, show (8 : UInt32).toNat = 8 from rfl,
    show (16 : UInt32).toNat = 16 from rfl, show (24 : UInt32).toNat = 24 from rfl]
  omega

/-! Frames. -/

def encodeFrame (frame : Frame) : Except String (List UInt8) := do
  frameError frame
  let bytes := appendU32 [] frame.payload.length.toUInt32
  let bytes := appendU16 bytes frame.messageType
  let bytes := appendU16 bytes frame.flags
  return bytes ++ frame.payload

/-- The frame at the front of some bytes and the bytes behind it: one turn of the loop that
reads them all. -/
def decodeFrame : List UInt8 → Except String (Frame × List UInt8)
  | length0 :: length1 :: length2 :: length3 :: type0 :: type1 :: flags0 :: flags1 :: rest => do
      let payloadLen := readU32 length0 length1 length2 length3
      let messageType := readU16 type0 type1
      let flags := readU16 flags0 flags1
      require (payloadLen.toNat ≤ kMaximumFramePayload)
        (protocolFailure "E_FRAME_LIMIT" "decode" "frame payload exceeds 64 MiB")
      require (flags &&& ~~~kKnownFlags = 0) (protocolError "frame uses reserved flags")
      require (payloadLen.toNat ≤ rest.length) (protocolError "truncated frame payload")
      return (⟨messageType, flags, rest.take payloadLen.toNat⟩, rest.drop payloadLen.toNat)
  | _ => .error (protocolError "truncated frame header")

theorem frameError_ok {frame : Frame} : frameError frame = .ok () ↔
    frame.payload.length ≤ kMaximumFramePayload ∧ frame.flags &&& ~~~kKnownFlags = 0 := by
  rw [frameError, check_ok, require_ok, require_ok]

/-- The eight bytes before a payload: its length, the type and the flags. -/
structure Header (frame : Frame) (header : List UInt8) : Prop where
  split : ∃ length0 length1 length2 length3 type0 type1 flags0 flags1,
    header = [length0, length1, length2, length3, type0, type1, flags0, flags1] ∧
      (readU32 length0 length1 length2 length3).toNat = frame.payload.length ∧
      readU16 type0 type1 = frame.messageType ∧ readU16 flags0 flags1 = frame.flags

theorem Header.length {frame : Frame} {header : List UInt8} (held : Header frame header) :
    header.length = 8 := by
  obtain ⟨_, _, _, _, _, _, _, _, rfl, _⟩ := held.split
  rfl

theorem toNat_length {payload : List UInt8} (short : payload.length ≤ kMaximumFramePayload) :
    payload.length.toUInt32.toNat = payload.length := by
  have bound : kMaximumFramePayload < 2 ^ 32 := by decide
  rw [Nat.toUInt32, UInt32.toNat_ofNat']
  omega

theorem encodeFrame_ok {frame : Frame} {code : List UInt8} : encodeFrame frame = .ok code ↔
    frameError frame = .ok () ∧ ∃ header, Header frame header ∧ code = header ++ frame.payload := by
  rw [encodeFrame, check_ok, pure_ok]
  refine and_congr_right fun sound => ?_
  have short := toNat_length (frameError_ok.mp sound).1
  constructor
  · rintro rfl
    refine ⟨_, ⟨_, _, _, _, _, _, _, _, rfl, ?_, ?_, ?_⟩, rfl⟩
    · rw [(appendU32_eq [] frame.payload.length.toUInt32 _ _ _ _).mp rfl, short]
    · exact (appendU16_eq [] frame.messageType _ _).mp rfl
    · exact (appendU16_eq [] frame.flags _ _).mp rfl
  · rintro ⟨header, ⟨length0, length1, length2, length3, type0, type1, flags0, flags1, rfl, length,
      type, flags⟩, rfl⟩
    have word : readU32 length0 length1 length2 length3 = frame.payload.length.toUInt32 :=
      UInt32.toNat_inj.mp (length.trans short.symm)
    rw [(appendU32_eq [] _ _ _ _ _).mpr word, (appendU16_eq _ _ _ _).mpr type,
      (appendU16_eq _ _ _ _).mpr flags]
    simp

theorem decodeFrame_ok {bytes rest : List UInt8} {frame : Frame} :
    decodeFrame bytes = .ok (frame, rest) ↔ frameError frame = .ok () ∧
      ∃ header, Header frame header ∧ bytes = header ++ frame.payload ++ rest := by
  constructor
  · intro decoded
    unfold decodeFrame at decoded
    split at decoded
    · rename_i length0 length1 length2 length3 type0 type1 flags0 flags1 behind
      simp only [check_ok, require_ok, pure_ok, Prod.mk.injEq] at decoded
      obtain ⟨short, reserved, whole, rfl, rfl⟩ := decoded
      have length := List.length_take_of_le whole
      refine ⟨frameError_ok.mpr ⟨length.trans_le short, reserved⟩, _,
        ⟨_, _, _, _, _, _, _, _, rfl, length.symm, rfl, rfl⟩, ?_⟩
      simp
    · cases decoded
  · rintro ⟨sound, header, ⟨length0, length1, length2, length3, type0, type1, flags0, flags1, rfl,
      length, type, flags⟩, rfl⟩
    obtain ⟨short, reserved⟩ := frameError_ok.mp sound
    simp only [decodeFrame, List.cons_append, List.nil_append, check_ok, require_ok, pure_ok,
      length, type, flags, List.take_left, List.drop_left]
    exact ⟨short, reserved, by simp, trivial⟩

theorem encodeFrame_ne_nil {frame : Frame} {code : List UInt8}
    (encoded : encodeFrame frame = .ok code) : code ≠ [] := by
  obtain ⟨_, header, held, rfl⟩ := encodeFrame_ok.mp encoded
  intro empty
  have length := congrArg List.length empty
  rw [List.length_append, held.length] at length
  simp at length

def frameCodec : Codec Frame UInt8 String where
  encode := encodeFrame
  next := decodeFrame
  next_encode rest encoded := by
    obtain ⟨sound, header, held, rfl⟩ := encodeFrame_ok.mp encoded
    exact decodeFrame_ok.mpr ⟨sound, header, held, rfl⟩
  encode_next decoded := by
    obtain ⟨sound, header, held, rfl⟩ := decodeFrame_ok.mp decoded
    exact ⟨_, encodeFrame_ok.mpr ⟨sound, header, held, rfl⟩, rfl⟩
  code_ne_nil := encodeFrame_ne_nil

def encodeFrames (frames : List Frame) : Except String (List UInt8) :=
  List.flatten <$> collect encodeFrame frames

/-- Every frame of a whole buffer. -/
def decodeFrames (bytes : List UInt8) : Except String (List Frame) := frameCodec.decodeAll bytes

theorem decodeFrames_ok {bytes : List UInt8} {frames : List Frame} :
    decodeFrames bytes = .ok frames ↔ encodeFrames frames = .ok bytes :=
  show frameCodec.decodeAll bytes = _ ↔ frameCodec.encodeAll frames = _ from Codec.decodeAll_iff

theorem encodeFrames_cons {frame : Frame} {frames : List Frame} {bytes : List UInt8} :
    encodeFrames (frame :: frames) = .ok bytes ↔ ∃ code rest, encodeFrame frame = .ok code ∧
      encodeFrames frames = .ok rest ∧ code ++ rest = bytes :=
  show frameCodec.encodeAll (frame :: frames) = _ ↔ _ from Codec.encodeAll_cons

end Neutrino.BackendProtocol
