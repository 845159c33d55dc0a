/-
  Console frames (`crates/protocol/src/lib.rs`): the frame record, its type bytes, the request
  that opens an exec stream, and the four-byte resize and exit payloads, which their decoders
  read back (`decodeResize_encodeResize`, `decodeExit_encodeExit`).
-/
import FlyVault.Lib.Endian

namespace FlyVault.Protocol

open FlyVault.Lib

abbrev Bytes := List UInt8

/-- `CONSOLE_DATA`. -/
def consoleData : UInt8 := 0x00

/-- `CONSOLE_RESIZE`. -/
def consoleResize : UInt8 := 0x01

/-- `CONSOLE_EXIT`. -/
def consoleExit : UInt8 := 0x02

/-- `ConsoleFrame`. -/
structure ConsoleFrame where
  ty : UInt8
  payload : Bytes
  deriving DecidableEq, Repr

/-- `ExecSessionRequest`, the payload of the frame that opens an exec stream. -/
structure ExecSessionRequest where
  sessionId : String
  argv : Option (List String)
  context : Option String
  renderedBytes : UInt64
  deriving DecidableEq, Repr

/-- `encode_resize`. -/
def encodeResize (rows cols : UInt16) : Bytes := beBytes 2 rows.toNat ++ beBytes 2 cols.toNat

/-- `decode_resize`. -/
def decodeResize (data : Bytes) : Except String (UInt16 × UInt16) :=
  if data.length ≠ 4 then .error s!"invalid resize payload length: {data.length}"
  else .ok (UInt16.ofNat (beNat (data.take 2)), UInt16.ofNat (beNat (data.drop 2)))

theorem decodeResize_encodeResize (rows cols : UInt16) :
    decodeResize (encodeResize rows cols) = .ok (rows, cols) := by
  have hrows : rows.toNat < 256 ^ 2 := rows.toNat_lt
  have hcols : cols.toNat < 256 ^ 2 := cols.toNat_lt
  have htake : (encodeResize rows cols).take 2 = beBytes 2 rows.toNat :=
    List.take_left' (length_beBytes 2 _)
  have hdrop : (encodeResize rows cols).drop 2 = beBytes 2 cols.toNat :=
    List.drop_left' (length_beBytes 2 _)
  rw [decodeResize, htake, hdrop, if_neg (by simp [encodeResize]), beNat_beBytes 2 _ hrows,
    beNat_beBytes 2 _ hcols, UInt16.ofNat_toNat, UInt16.ofNat_toNat]

/-- `encode_exit`, and the payload `write_exit_frame` builds. -/
def encodeExit (exitCode : UInt32) : Bytes := beBytes 4 exitCode.toNat

/-- `decode_exit`. -/
def decodeExit (data : Bytes) : Except String UInt32 :=
  if data.length ≠ 4 then .error s!"invalid exit payload length: {data.length}"
  else .ok (UInt32.ofNat (beNat data))

theorem decodeExit_encodeExit (code : UInt32) : decodeExit (encodeExit code) = .ok code := by
  have hlt : code.toNat < 256 ^ 4 := code.toNat_lt
  simp [decodeExit, encodeExit, beNat_beBytes 4 _ hlt]

end FlyVault.Protocol
