import Hick.Lib.LittleEndian

/-!
# Control messages on a target (hick-udp/src/multicast.rs:2239-2391)

A control buffer holds entries back to back: a header that tells the entry's length, level and type,
then the payload.
-/

namespace Hick
open Octets

namespace Ancillary

structure Header where
  len : Nat
  level : Int32
  ty : Int32
  deriving DecidableEq

/-- What the platform's C library fixes: the size of a header and how it stands in memory, to what
entries are aligned, and which lengths the length field holds. -/
structure Layout where
  headerSize : Nat
  alignment : Nat
  lenLimit : Nat
  read : Bytes → Header
  write : Header → Bytes
  headerSize_pos : 0 < headerSize
  alignment_pos : 0 < alignment
  lenLimit_le : 2 ^ 32 ≤ lenLimit
  header_fits : (headerSize + alignment - 1) / alignment * alignment < 2 ^ 32
  write_length : ∀ hdr, (write hdr).length = headerSize
  read_write : ∀ hdr, hdr.len < lenLimit → read (write hdr) = hdr

namespace Layout

def align (l : Layout) (n : Nat) : Nat := (n + l.alignment - 1) / l.alignment * l.alignment

def cmsgLen (l : Layout) (n : Nat) : Nat := (l.align l.headerSize + n) % 2 ^ 32

def cmsgSpace (l : Layout) (n : Nat) : Nat := (l.align n + l.align l.headerSize) % 2 ^ 32

theorem le_align (l : Layout) (n : Nat) : n ≤ l.align n := by
  have hpos := l.alignment_pos
  have hmod := Nat.mod_lt (n + l.alignment - 1) hpos
  have hdiv := Nat.div_add_mod' (n + l.alignment - 1) l.alignment
  unfold align
  omega

theorem align_mono (l : Layout) (m n : Nat) (h : m ≤ n) : l.align m ≤ l.align n := by
  unfold align
  apply Nat.mul_le_mul_right
  apply Nat.div_le_div_right
  omega

theorem dataStart_eq (l : Layout) : l.cmsgLen 0 = l.align l.headerSize := by
  unfold cmsgLen
  rw [Nat.add_zero]
  exact Nat.mod_eq_of_lt l.header_fits

theorem headerSize_le (l : Layout) : l.headerSize ≤ l.cmsgLen 0 := by
  rw [l.dataStart_eq]
  exact l.le_align l.headerSize

def Holds (l : Layout) (n : Nat) : Prop := l.align n + l.align l.headerSize < 2 ^ 32

instance (l : Layout) (n : Nat) : Decidable (l.Holds n) := by
  unfold Holds
  infer_instance

theorem Holds.space (l : Layout) (n : Nat) (h : l.Holds n) :
    l.cmsgSpace n = l.align n + l.align l.headerSize := Nat.mod_eq_of_lt h

theorem Holds.len (l : Layout) (n : Nat) (h : l.Holds n) :
    l.cmsgLen n = l.align l.headerSize + n := by
  have hle := l.le_align n
  apply Nat.mod_eq_of_lt
  unfold Holds at h
  omega

theorem Holds.mono (l : Layout) (m n : Nat) (hle : m ≤ n) (h : l.Holds n) : l.Holds m := by
  have halign := l.align_mono m n hle
  unfold Holds at h ⊢
  omega

end Layout

structure ParsedCmsg where
  level : Int32
  ty : Int32
  data : Bytes
  deriving DecidableEq

def Layout.header (l : Layout) (c : ParsedCmsg) : Header :=
  ⟨l.cmsgLen c.data.length, c.level, c.ty⟩

/-- The bytes hold the entries one behind the other. What fills the room before a payload and behind
it may be anything, and the room behind the last one may be missing, wholly or in part. -/
inductive Encodes (l : Layout) : List ParsedCmsg → Bytes → Prop
  | nil : Encodes l [] []
  | last (c : ParsedCmsg) (gap pad : Bytes) (hgap : l.headerSize + gap.length = l.cmsgLen 0)
      (hpad : pad.length ≤ l.cmsgSpace c.data.length - l.cmsgLen c.data.length) :
      Encodes l [c] (l.write (l.header c) ++ gap ++ c.data ++ pad)
  | cons (c : ParsedCmsg) (gap pad : Bytes) (hgap : l.headerSize + gap.length = l.cmsgLen 0)
      (hpad : pad.length = l.cmsgSpace c.data.length - l.cmsgLen c.data.length)
      (more : List ParsedCmsg) (bytes : Bytes) (h : Encodes l more bytes) :
      Encodes l (c :: more) (l.write (l.header c) ++ gap ++ c.data ++ pad ++ bytes)

def Layout.entry (l : Layout) (c : ParsedCmsg) : Bytes :=
  l.write (l.header c) ++ List.replicate (l.cmsgLen 0 - l.headerSize) 0 ++ c.data ++
    List.replicate (l.cmsgSpace c.data.length - l.cmsgLen c.data.length) 0

def Layout.encode (l : Layout) (entries : List ParsedCmsg) : Bytes := entries.flatMap l.entry

theorem encode_encodes (l : Layout) (entries : List ParsedCmsg) :
    Encodes l entries (l.encode entries) := by
  induction entries with
  | nil => exact .nil
  | cons c rest ih =>
    have hstart := l.headerSize_le
    exact .cons c _ _ (by rw [List.length_replicate]; omega) List.length_replicate rest _ ih

end Ancillary
end Hick

/-!
## Control messages of Linux on 64 bits

`cmsghdr` is a length of eight octets, then level and type of four each, the least octet first, and
entries are aligned to eight octets.
-/

namespace Hick
open Octets

namespace Ancillary

def writeInt32 (v : Int32) : Bytes := le 4 v.toUInt32.toNat

def readInt32 (bs : Bytes) : Int32 := (UInt32.ofNat (ofLe bs)).toInt32

theorem readInt32_write (v : Int32) : readInt32 (writeInt32 v) = v := by
  unfold readInt32 writeInt32
  rw [ofLe_le 4 _ v.toUInt32.toNat_lt]
  simp only [UInt32.ofNat_toNat, Int32.toInt32_toUInt32]

def linux64 : Layout where
  headerSize := 16
  alignment := 8
  lenLimit := 2 ^ 64
  read := fun bs => ⟨ofLe (bs.take 8), readInt32 ((bs.drop 8).take 4), readInt32 (bs.drop 12)⟩
  write := fun hdr => le 8 hdr.len ++ writeInt32 hdr.level ++ writeInt32 hdr.ty
  headerSize_pos := by decide
  alignment_pos := by decide
  lenLimit_le := by decide
  header_fits := by decide
  write_length := by
    intro hdr
    simp only [writeInt32, List.length_append, le_length]
  read_write := by
    intro hdr hlen
    have hlevel : (writeInt32 hdr.level).length = 4 := le_length 4 _
    have htake : (le 8 hdr.len ++ writeInt32 hdr.level ++ writeInt32 hdr.ty).take 8 =
        le 8 hdr.len := by
      rw [List.append_assoc]
      exact List.take_left' (le_length 8 _)
    have hmiddle : ((le 8 hdr.len ++ writeInt32 hdr.level ++ writeInt32 hdr.ty).drop 8).take 4 =
        writeInt32 hdr.level := by
      rw [List.append_assoc, List.drop_left' (le_length 8 _)]
      exact List.take_left' hlevel
    have hend : (le 8 hdr.len ++ writeInt32 hdr.level ++ writeInt32 hdr.ty).drop 12 =
        writeInt32 hdr.ty := by
      apply List.drop_left'
      rw [List.length_append, le_length, hlevel]
    rw [htake, hmiddle, hend, readInt32_write, readInt32_write, ofLe_le 8 _ hlen]

end Ancillary
end Hick
