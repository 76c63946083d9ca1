/-
Module: OmniBinder.Lib.Bytes
Purpose: Byte strings as lists, with the notions every wire-level module needs: little-endian integer
  encoding of a fixed width, overwriting a stretch of a block in place (`splice`, the effect of a
  `memcpy` into the middle of an allocation), taking a front off (`Consumes`, what a reader does), a block
  used as a circular store, and hashing of trees by the texts of their leaves.
Trusted boundary: none
Main exports: Bytes, Circular.occupied, Hasher
-/
import Mathlib.Algebra.Order.Group.Nat
import Mathlib.Data.List.Induction
import Mathlib.Data.List.Rotate

/-- A byte string, also the model of an arbitrary `std::string`. -/
abbrev Bytes := List UInt8

instance : LawfulBEq Bytes := inferInstance

/-- The bytes of a text in the ASCII range. -/
def ascii (text : String) : Bytes := text.toList.map fun c => UInt8.ofNat c.toNat

namespace LittleEndian

/-- The `width` low-order bytes of `value`, least significant first. -/
def encode : Nat → Nat → Bytes
  | 0, _ => []
  | width + 1, value => UInt8.ofNat value :: encode width (value / 256)

/-- The number whose little-endian digits are the given bytes. -/
def decode : Bytes → Nat
  | [] => 0
  | byte :: bytes => byte.toNat + 256 * decode bytes

@[simp] theorem length_encode (width value : Nat) : (encode width value).length = width := by
  induction width generalizing value with
  | zero => rfl
  | succ width ih => simp [encode, ih]

/-- Decoding what was encoded returns the value modulo the range of the width. -/
theorem decode_encode (width value : Nat) : decode (encode width value) = value % 256 ^ width := by
  induction width generalizing value with
  | zero => simp [encode, decode, Nat.mod_one]
  | succ width ih =>
    have hbyte : (UInt8.ofNat value).toNat = value % 256 := by simp
    rw [encode, decode, ih, hbyte, Nat.pow_succ, Nat.mul_comm (256 ^ width) 256, Nat.mod_mul]

theorem encode_decode (bytes : Bytes) : encode bytes.length (decode bytes) = bytes := by
  induction bytes with
  | nil => rfl
  | cons byte bytes ih =>
    have hlow : UInt8.ofNat (decode (byte :: bytes)) = byte := by
      apply UInt8.toNat.inj
      simp [decode]
    have hhigh : decode (byte :: bytes) / 256 = decode bytes := by
      have := byte.toNat_lt
      rw [decode]
      omega
    rw [List.length_cons, encode, hlow, hhigh, ih]

/-- Only the value modulo the range of the width is encoded. -/
theorem encode_mod (width value : Nat) : encode width (value % 256 ^ width) = encode width value := by
  induction width generalizing value with
  | zero => rfl
  | succ width ih =>
    have hlow : UInt8.ofNat (value % 256 ^ (width + 1)) = UInt8.ofNat value := by
      apply UInt8.toNat.inj
      simp only [UInt8.toNat_ofNat']
      exact Nat.mod_mod_of_dvd value (Nat.dvd_mul_left 256 (256 ^ width))
    have hhigh : value % 256 ^ (width + 1) / 256 = value / 256 % 256 ^ width := by
      rw [Nat.pow_succ', Nat.mod_mul_right_div_self]
    rw [encode, encode, hlow, hhigh, ih]

/-- A count is encoded in four bytes the same before and after it is cut to its type. -/
theorem encode_uint32 (count : Nat) : encode 4 (UInt32.ofNat count).toNat = encode 4 count := by
  rw [UInt32.toNat_ofNat']
  exact encode_mod 4 count

theorem decode_encode_of_lt {width value : Nat} (h : value < 256 ^ width) :
    decode (encode width value) = value := by
  rw [decode_encode, Nat.mod_eq_of_lt h]

end LittleEndian

section Splice

variable {α : Type*} {block : List α} {block content : List α}

/-- Overwrite the stretch of `block` that starts at `pos` with `content`. -/
def splice (pos : Nat) (content block : List α) : List α :=
  block.take pos ++ content ++ block.drop (pos + content.length)

theorem splice_append (front content back : List α) :
    splice front.length content (front ++ back) = front ++ content ++ back.drop content.length := by
  rw [splice, List.take_left, ← List.drop_drop, List.drop_left]

theorem splice_zero (content block : List α) :
    splice 0 content block = content ++ block.drop content.length := by
  simp [splice]

variable {pos : Nat} {content block : List α}

/-- A write inside the block keeps the block's length. -/
theorem length_splice (h : pos + content.length ≤ block.length) :
    (splice pos content block).length = block.length := by
  simp only [splice, List.length_append, List.length_take, List.length_drop]
  omega

/-- The block is never shorter than what was written into it. -/
theorem le_length_splice (h : pos ≤ block.length) (content : List α) :
    pos + content.length ≤ (splice pos content block).length := by
  simp only [splice, List.length_append, List.length_take, List.length_drop]
  omega

/-- Writing never shrinks the block. -/
theorem length_le_length_splice (pos : Nat) (content block : List α) :
    block.length ≤ (splice pos content block).length := by
  simp only [splice, List.length_append, List.length_take, List.length_drop]
  omega

/-- A write right behind another continues it. -/
theorem splice_behind {next : Nat} {more : List α} (hnext : next = pos + content.length)
    (h : pos ≤ block.length) :
    splice next more (splice pos content block) = splice pos (content ++ more) block := by
  have hlen : (block.take pos ++ content).length = next := by
    simp [Nat.min_eq_left h, hnext]
  rw [splice.eq_def pos content, ← hlen, splice_append]
  simp [splice, Nat.add_assoc]

/-- A write right in front of another continues it. -/
theorem splice_front {next : Nat} {more : List α} (hnext : next = pos + content.length)
    (h : next ≤ block.length) :
    splice pos content (splice next more block) = splice pos (content ++ more) block := by
  have hlen : (block.take next).length = next := by simp [h]
  have hdrop : (splice next more block).drop next = more ++ block.drop (next + more.length) := by
    rw [splice, List.append_assoc, List.drop_left' hlen]
  have htake : (splice next more block).take pos = block.take pos := by
    rw [splice, List.append_assoc, List.take_append_of_le_length (by omega), List.take_take,
      Nat.min_eq_left (by omega)]
  rw [splice.eq_def pos content, htake, ← hnext, hdrop]
  simp [splice, hnext, Nat.add_assoc]

/-- What lies before the written stretch is untouched. -/
theorem take_splice_left (h : pos ≤ block.length) :
    (splice pos content block).take pos = block.take pos := by
  simp [splice, Nat.min_eq_left h]

/-- Up to its end the written block reads the old prefix followed by the new content. -/
theorem take_splice (h : pos ≤ block.length) :
    (splice pos content block).take (pos + content.length) = block.take pos ++ content := by
  have hlen : (block.take pos ++ content).length = pos + content.length := by
    simp [Nat.min_eq_left h]
  rw [splice, ← hlen, List.take_left]

/-- What was written at the start of a block is read back from there. -/
@[simp]
theorem take_splice_zero (content block : List α) :
    (splice 0 content block).take content.length = content := by
  simpa using take_splice (Nat.zero_le block.length)

/-- What was written is read back from where it was written. -/
theorem take_drop_splice (h : pos ≤ block.length) (content : List α) :
    ((splice pos content block).drop pos).take content.length = content := by
  have hlen : (block.take pos).length = pos := by simp [h]
  have hdrop : (splice pos content block).drop pos =
      content ++ block.drop (pos + content.length) := by
    rw [splice, List.append_assoc]
    exact List.drop_left' hlen
  rw [hdrop, List.take_left]

/-- A stretch before the written one reads as before. -/
theorem take_drop_splice_before {start n : Nat} (hpos : pos ≤ block.length)
    (hbefore : start + n ≤ pos) :
    ((splice pos content block).drop start).take n = (block.drop start).take n := by
  have htake : (splice pos content block).take pos = block.take pos := take_splice_left hpos
  calc ((splice pos content block).drop start).take n
      = (((splice pos content block).take pos).drop start).take n := by
        rw [List.drop_take, List.take_take, Nat.min_eq_left (by omega)]
    _ = ((block.take pos).drop start).take n := by rw [htake]
    _ = (block.drop start).take n := by
        rw [List.drop_take, List.take_take, Nat.min_eq_left (by omega)]

/-- What lies behind the written stretch is untouched. -/
theorem drop_splice_behind {start : Nat} (h : pos + content.length ≤ block.length)
    (hbehind : pos + content.length ≤ start) :
    (splice pos content block).drop start = block.drop start := by
  have hlen : (block.take pos ++ content).length = pos + content.length := by
    simp
    omega
  obtain ⟨k, rfl⟩ := Nat.exists_eq_add_of_le hbehind
  rw [splice, ← hlen, ← List.drop_drop, List.drop_left, List.drop_drop, hlen]

end Splice

/-! ### Taking elements from the front -/

section Consumes

variable {α : Type}

/-- `rest` is what remains of `view` behind its first `count` elements. -/
def Consumes (count : Nat) (view rest : List α) : Prop :=
  ∃ front : List α, front.length = count ∧ view = front ++ rest

namespace Consumes

theorem trans {m n : Nat} {view middle rest : List α} (hfirst : Consumes m view middle)
    (hsecond : Consumes n middle rest) : Consumes (m + n) view rest := by
  obtain ⟨front, hfront, rfl⟩ := hfirst
  obtain ⟨back, hback, rfl⟩ := hsecond
  exact ⟨front ++ back, by simp [hfront, hback], by simp⟩

theorem drop {count : Nat} {view : List α} (hle : count ≤ view.length) :
    Consumes count view (view.drop count) :=
  ⟨view.take count, by simp [hle], by simp⟩

theorem length_eq {count : Nat} {view rest : List α} (h : Consumes count view rest) :
    view.length = count + rest.length := by
  obtain ⟨front, hfront, rfl⟩ := h
  rw [List.length_append, hfront]

end Consumes

end Consumes

/-! ### Separators -/

/-- What stands before the first separator and what stands behind it are determined by the whole. -/
theorem append_separator_inj {α : Type} {sep : α} {xs ys as bs : List α} (hxs : sep ∉ xs)
    (hys : sep ∉ ys) (h : xs ++ sep :: as = ys ++ sep :: bs) : xs = ys ∧ as = bs := by
  induction xs generalizing ys with
  | nil =>
    cases ys with
    | nil => exact ⟨rfl, (List.cons.inj h).2⟩
    | cons y ys => exact absurd ((List.cons.inj h).1 ▸ List.mem_cons_self) hys
  | cons x xs ih =>
    cases ys with
    | nil => exact absurd ((List.cons.inj h).1 ▸ List.mem_cons_self) hxs
    | cons y ys =>
      obtain ⟨hhead, htail⟩ := List.cons.inj h
      obtain ⟨hfront, hback⟩ := ih (fun hmem => hxs (List.mem_cons_of_mem _ hmem))
        (fun hmem => hys (List.mem_cons_of_mem _ hmem)) htail
      exact ⟨by rw [hhead, hfront], hback⟩

namespace Circular

open List

variable {start count pos n : Nat}

variable {α : Type*}

/-- The `count` cells from index `start` on, wrapping at the end of the block. -/
def occupied (block : List α) (start count : Nat) : List α := (block.rotate start).take count

/-- Copy into the block at `pos`, of which `room` cells lie before the end: one piece up to the end and
    the rest from the beginning. -/
def store (room pos : Nat) (content block : List α) : List α :=
  let first := min content.length room
  let stored := splice pos (content.take first) block
  if first < content.length then splice 0 (content.drop first) stored else stored

/-- Copy `n` cells out of the block from `pos`, of which `room` cells lie before the end. -/
def fetch (room pos n : Nat) (block : List α) : List α :=
  let first := min n room
  let piece := (block.drop pos).take first
  if first < n then piece ++ block.take (n - first) else piece

/-- A copy that does not reach the end is one overwrite. -/
theorem store_eq_splice {room : Nat} {content block : List α} (h : content.length ≤ room) :
    store room pos content block = splice pos content block := by
  have hmin : min content.length room = content.length := by omega
  simp only [store, hmin, lt_irrefl, if_false, take_length]

/-- A copy that reaches past the end puts its tail at the beginning. -/
theorem store_append {front back head tail : List α} (hhead : head.length = back.length)
    (htail : tail.length ≤ front.length) :
    store back.length front.length (head ++ tail) (front ++ back) =
      tail ++ front.drop tail.length ++ head := by
  have hmin : min (head ++ tail).length back.length = head.length := by
    rw [length_append]
    omega
  have hover : splice front.length head (front ++ back) = front ++ head := by
    rw [splice_append, hhead, drop_length, append_nil]
  simp only [store, hmin, take_left, drop_left, hover]
  by_cases hnil : tail = []
  · simp [hnil]
  have hlt : head.length < (head ++ tail).length := by
    have := length_pos_iff.mpr hnil
    rw [length_append]
    omega
  rw [if_pos hlt, splice_zero, drop_append_of_le_length htail, append_assoc]

/-- Seen from the place of the copy, the block starts with what was copied. -/
theorem rotate_store (hpos : pos ≤ block.length)
    (hfits : content.length ≤ block.length) :
    (store (block.length - pos) pos content block).rotate pos =
      content ++ (block.rotate pos).drop content.length := by
  obtain ⟨front, back, rfl, rfl⟩ : ∃ front back, block = front ++ back ∧ pos = front.length :=
    ⟨block.take pos, block.drop pos, (take_append_drop pos block).symm, by simp [hpos]⟩
  have hroom : (front ++ back).length - front.length = back.length := by simp
  rw [hroom, rotate_append_length_eq]
  by_cases hwrap : content.length ≤ back.length
  · rw [store_eq_splice hwrap, splice_append, append_assoc, rotate_append_length_eq,
      drop_append_of_le_length hwrap, append_assoc]
  -- the copy wraps: cut it at the end of the block
  obtain ⟨head, tail, rfl, hhead⟩ :
      ∃ head tail, content = head ++ tail ∧ head.length = back.length :=
    ⟨content.take back.length, content.drop back.length, (take_append_drop _ _).symm,
      by rw [length_take]; omega⟩
  have htail : tail.length ≤ front.length := by
    simp only [length_append] at hfits
    omega
  have hfront : (tail ++ front.drop tail.length).length = front.length := by
    rw [length_append, length_drop]
    omega
  rw [store_append hhead htail, ← hfront, rotate_append_length_eq, length_append, hhead,
    ← drop_drop, drop_left, append_assoc]

theorem length_store (hpos : pos ≤ block.length)
    (hfits : content.length ≤ block.length) :
    (store (block.length - pos) pos content block).length = block.length := by
  have hlen := congrArg List.length (rotate_store hpos hfits)
  rw [length_rotate, length_append, length_drop, length_rotate] at hlen
  omega

/-! ### The occupied part -/

/-- Moving the start and dropping from the front are the same. -/
theorem rotate_advance (block : List α) (start k : Nat) :
    block.rotate ((start + k) % block.length) = (block.rotate start).rotate k := by
  rw [rotate_mod, rotate_rotate]

/-- A copy behind the occupied part extends it by what was copied, and nothing else of it changes. -/
theorem occupied_store (hne : 0 < block.length)
    (hfits : count + content.length ≤ block.length) :
    occupied (store (block.length - (start + count) % block.length) ((start + count) % block.length)
        content block) start (count + content.length) = occupied block start count ++ content := by
  have hpos : (start + count) % block.length ≤ block.length := (Nat.mod_lt _ hne).le
  have hlen := length_store hpos (show content.length ≤ block.length by omega)
  have hstored := rotate_store hpos (show content.length ≤ block.length by omega)
  generalize hwritten : store (block.length - (start + count) % block.length)
    ((start + count) % block.length) content block = written at hlen hstored ⊢
  -- look at both blocks from the start; there the copy sits behind the occupied part
  have hcount : count ≤ (block.rotate start).length := by
    rw [length_rotate]
    omega
  have hcount' : count ≤ (written.rotate start).length := by
    rw [length_rotate]
    omega
  rw [rotate_advance block start count, ← hlen, rotate_advance written start count,
    rotate_eq_drop_append_take hcount, rotate_eq_drop_append_take hcount',
    drop_append_of_le_length (by rw [length_drop, length_rotate]; omega),
    ← append_assoc] at hstored
  obtain ⟨hback, hfront⟩ := append_inj hstored (by
    rw [length_append, length_drop, length_drop, length_drop,
      length_rotate, length_rotate]
    omega)
  rw [occupied, occupied, take_add, hfront, hback, take_left]

/-- The first cells of the occupied part. -/
theorem occupied_take (h : n ≤ count) :
    occupied block start n = (occupied block start count).take n := by
  rw [occupied, occupied, take_take, Nat.min_eq_left h]

/-- Advancing the start drops cells from the front. -/
theorem occupied_advance {k : Nat} (hk : k ≤ count)
    (hcount : count ≤ block.length) : occupied block ((start + k) % block.length) (count - k) =
      (occupied block start count).drop k := by
  have hlen : k ≤ (block.rotate start).length := by
    rw [length_rotate]
    omega
  rw [occupied, occupied, rotate_advance, rotate_eq_drop_append_take hlen,
    take_append_of_le_length (by rw [length_drop, length_rotate]; omega),
    drop_take]

/-- Copying out reads the cells from the given position on. -/
theorem fetch_eq_occupied (hpos : pos ≤ block.length)
    (hn : n ≤ block.length) : fetch (block.length - pos) pos n block = occupied block pos n := by
  rw [occupied, rotate_eq_drop_append_take hpos]
  by_cases hwrap : n ≤ block.length - pos
  · have hmin : min n (block.length - pos) = n := by omega
    simp only [fetch, hmin, lt_irrefl, if_false]
    rw [take_append_of_le_length (by rw [length_drop]; exact hwrap)]
  · have hmin : min n (block.length - pos) = block.length - pos := by omega
    have hall : (block.drop pos).take (block.length - pos) = block.drop pos := by
      rw [← length_drop, take_length]
    simp only [fetch, hmin, if_pos (Nat.lt_of_not_le hwrap), hall]
    have hwhole : (block.drop pos).take n = block.drop pos :=
      take_of_length_le (by rw [length_drop]; omega)
    rw [take_append, length_drop, hwhole, take_take, Nat.min_eq_left (by omega)]

/-- The cells of the occupied part lie at wrapping indices. -/
theorem getD_occupied {i : Nat} (start : Nat) (d : α) (hi : i < count)
    (hcount : count ≤ block.length) :
    (occupied block start count).getD i d = block.getD ((start + i) % block.length) d := by
  have hlt : (start + i) % block.length < block.length := Nat.mod_lt _ (by omega)
  have hin : i < block.length := by omega
  simp [occupied, getElem_rotate, hi, hin, hlt, Nat.add_comm i start]

end Circular

/-- The hash of a text, and the mix of a hash with another. -/
structure Hasher (H : Type) where
  hash : Bytes → H
  combine : H → H → H

namespace Hasher

variable {H : Type}

/-- No collisions: neither among texts, nor among mixes, nor between the two. -/
structure Free (hasher : Hasher H) : Prop where
  hash_inj : ∀ {text text' : Bytes}, hasher.hash text = hasher.hash text' → text = text'
  combine_inj : ∀ {first second first' second' : H},
    hasher.combine first second = hasher.combine first' second' → first = first' ∧ second = second'
  hash_ne_combine : ∀ (text : Bytes) (first second : H),
    hasher.hash text ≠ hasher.combine first second

/-- Mix one hash after the other into a first one. -/
def chain (hasher : Hasher H) (first : H) (hashes : List H) : H := hashes.foldl hasher.combine first

theorem chain_concat (hasher : Hasher H) (first last : H) (hashes : List H) :
    hasher.chain first (hashes ++ [last]) = hasher.combine (hasher.chain first hashes) last := by
  simp [chain]

namespace Free

variable {hasher : Hasher H}

/-- A chain that starts from a text is that text only if nothing was mixed in. -/
theorem eq_nil_of_chain_eq_hash (hfree : hasher.Free) {text text' : Bytes} {hashes : List H}
    (h : hasher.chain (hasher.hash text) hashes = hasher.hash text') : hashes = [] := by
  cases hashes using List.reverseRecOn with
  | nil => rfl
  | append_singleton hashes last _ =>
    rw [chain_concat] at h
    exact absurd h.symm (hfree.hash_ne_combine _ _ _)

/-- A chain determines the text it starts from and every hash that was mixed in. -/
theorem chain_inj (hfree : hasher.Free) {text text' : Bytes} : ∀ {hashes hashes' : List H},
      hasher.chain (hasher.hash text) hashes = hasher.chain (hasher.hash text') hashes' →
        text = text' ∧ hashes = hashes' := by
  intro hashes
  -- from the last mix to the first
  induction hashes using List.reverseRecOn with
  | nil =>
    intro hashes' h
    obtain rfl := hfree.eq_nil_of_chain_eq_hash h.symm
    exact ⟨hfree.hash_inj h, rfl⟩
  | append_singleton hashes last ih =>
    intro hashes' h
    cases hashes' using List.reverseRecOn with
    | nil => exact absurd (hfree.eq_nil_of_chain_eq_hash h) (by simp)
    | append_singleton hashes' last' _ =>
      rw [chain_concat, chain_concat] at h
      obtain ⟨hfirst, rfl⟩ := hfree.combine_inj h
      obtain ⟨htext, rfl⟩ := ih hfirst
      exact ⟨htext, rfl⟩

end Free

end Hasher

/-- The terms of the two operations. -/
inductive HashTerm where
  | leaf (text : Bytes)
  | node (first second : HashTerm)
deriving DecidableEq, Repr

namespace HashTerm

def hasher : Hasher HashTerm := ⟨leaf, node⟩

theorem free : hasher.Free where
  hash_inj h := HashTerm.leaf.inj h
  combine_inj h := HashTerm.node.inj h
  hash_ne_combine _ _ _ h := HashTerm.noConfusion h

end HashTerm
