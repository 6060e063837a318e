/-
  File:      Ece358/GroupServer/Message.lean
  Subject:   The requests of the group server (a2/Message.h) and what it answers (a2/Server.cc).

  * `Command`, `Message`, `serialize`, `deserialize` -- a request is three 32-bit words, as they
    lie in the memory of a little-endian machine;
  * `Message.codec` -- the round trips, as a codec;
  * `Groups`, `get` -- the table of names, and a reply.
-/
import Ece358.Lib.Bytes
import Ece358.Lib.Framing

namespace Ece358.GroupServer

open Lib

/-! ## 1. Requests -/

/-- enum Command -/
inductive Command where
  | GET
  | STOP
  | STOP_SESSION
  deriving DecidableEq

/-- The constant that a word stands for; a word off the network may stand for none. -/
def Command.ofWord (w : UInt32) : Option Command :=
  if w = 0 then some .GET
  else if w = 1 then some .STOP
  else if w = 2 then some .STOP_SESSION
  else none

/-- struct Message -/
structure Message where
  command : UInt32
  param1 : UInt32
  param2 : UInt32
  deriving DecidableEq

namespace Message

/-- sizeof(Message) -/
def sizeofMessage : Nat := 12

/-- The bytes of a word. -/
def wordBytes (w : UInt32) : List UInt8 := leBytes 4 w.toNat

/-- The word at offset `off`. -/
def wordAt (off : Nat) (buffer : List UInt8) : UInt32 :=
  UInt32.ofNat (ofLeBytes (field off 4 buffer))

def serialize (m : Message) : List UInt8 :=
  wordBytes m.command ++ wordBytes m.param1 ++ wordBytes m.param2

def deserialize (buffer : List UInt8) : Message :=
  ⟨wordAt 0 buffer, wordAt 4 buffer, wordAt 8 buffer⟩

theorem length_wordBytes (w : UInt32) : (wordBytes w).length = 4 := length_leBytes 4 _

/-- A word is read back from where it was written. -/
theorem wordAt_append (xs rest : List UInt8) (w : UInt32) {off : Nat} (h : xs.length = off) :
    wordAt off (xs ++ (wordBytes w ++ rest)) = w := by
  have hw := length_wordBytes w
  unfold wordAt
  rw [field_append_right _ _ 4 h, List.take_append_of_le_length (by omega),
    List.take_of_length_le (by omega), wordBytes, ofLeBytes_leBytes]
  refine UInt32.toNat_inj.mp ?_
  have := w.toNat_lt
  rw [UInt32.toNat_ofNat']
  omega

/-- The bytes of a word that was read. -/
theorem wordBytes_wordAt {off : Nat} {buffer : List UInt8} (h : off + 4 ≤ buffer.length) :
    wordBytes (wordAt off buffer) = field off 4 buffer := by
  have hlen : (field off 4 buffer).length = 4 := by
    rw [field, List.length_take, List.length_drop]
    omega
  have hlt := ofLeBytes_lt (field off 4 buffer)
  rw [hlen] at hlt
  rw [wordBytes, wordAt, UInt32.toNat_ofNat', Nat.mod_eq_of_lt (by omega)]
  have := leBytes_ofLeBytes (field off 4 buffer)
  rwa [hlen] at this

theorem length_serialize (m : Message) : m.serialize.length = sizeofMessage := by
  simp only [serialize, List.length_append, length_wordBytes, sizeofMessage]

theorem deserialize_serialize (m : Message) (rest : List UInt8) :
    deserialize (m.serialize ++ rest) = m := by
  obtain ⟨command, param1, param2⟩ := m
  have h0 : wordAt 0 _ = command :=
    wordAt_append [] (wordBytes param1 ++ (wordBytes param2 ++ rest)) command rfl
  have h4 : wordAt 4 _ = param1 :=
    wordAt_append (wordBytes command) (wordBytes param2 ++ rest) param1 (length_wordBytes _)
  have h8 : wordAt 8 _ = param2 :=
    wordAt_append (wordBytes command ++ wordBytes param1) rest param2
      (by simp only [List.length_append, length_wordBytes])
  rw [List.append_assoc] at h8
  simp only [serialize, deserialize, List.append_assoc]
  rw [Message.mk.injEq]
  exact ⟨h0, h4, h8⟩

theorem serialize_deserialize (buffer : List UInt8) (h : sizeofMessage ≤ buffer.length) :
    (deserialize buffer).serialize = buffer.take sizeofMessage := by
  unfold sizeofMessage at h
  simp only [serialize, deserialize]
  rw [wordBytes_wordAt (by omega), wordBytes_wordAt (by omega), wordBytes_wordAt (by omega)]
  simp only [field, sizeofMessage, List.drop_zero]
  rw [← List.take_add, ← List.take_add]

instance : Nontrivial UInt8 := ⟨0, 1, by decide⟩

/-- Requests as 12-byte strings. -/
def codec : Codec Message UInt8 where
  size := sizeofMessage
  enc := serialize
  dec := deserialize
  length_enc := length_serialize
  dec_enc := deserialize_serialize
  enc_dec := serialize_deserialize

/-- A request that ends the session or the server. -/
def ends (m : Message) : Bool :=
  match Command.ofWord m.command with
  | some .STOP => true
  | some .STOP_SESSION => true
  | _ => false

end Message

/-! ## 2. Replies -/

/-- groups_: the names, by group and student. -/
abbrev Groups := Int32 → Option (Int32 → Option (List UInt8))

/-- The characters of a text, as bytes. -/
def textBytes (text : String) : List UInt8 := text.toList.map fun c => UInt8.ofNat c.toNat

/-- Server::get -/
def get (groups_ : Groups) (group_id student_id : Int32) : List UInt8 :=
  match (groups_ group_id).bind fun students => students student_id with
  | some name => name
  | none => textBytes ("error: " ++ toString group_id.toInt ++ " " ++ toString student_id.toInt)

end Ece358.GroupServer
