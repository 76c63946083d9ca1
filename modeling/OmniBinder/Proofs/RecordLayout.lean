/-
Module: OmniBinder.Proofs.RecordLayout
Purpose: Records as sequences of fields, a bound on the size of what is read, and what is true of every
  deserializer because of the way deserializers are put together.
Trusted boundary: none
Main exports: Layout, deserializeServiceInfo_bounds, Mirrors.bind
-/
import OmniBinder.Core.ServiceCodec
import OmniBinder.Proofs.BufferSpec

namespace OmniBinder

open LittleEndian List Buffer

variable {write : Write} {l : Layout} {rest : List Layout} {content : Bytes}

variable {α β : Type}

/-- The strings and the numbers of list elements that are written for a record, and its bytes. -/
structure Layout where
  texts : List Bytes
  counts : List Nat
  wire : Bytes

namespace Layout

def fixed (content : Bytes) : Layout := ⟨[], [], content⟩

def text (content : Bytes) : Layout := ⟨[content], [], encode 4 content.length ++ content⟩

/-- One layout after the other. -/
def join : List Layout → Layout
  | [] => ⟨[], [], []⟩
  | first :: rest =>
    ⟨first.texts ++ (join rest).texts, first.counts ++ (join rest).counts,
      first.wire ++ (join rest).wire⟩

/-- A list behind its count. -/
def counted (elements : List Layout) : Layout :=
  ⟨(join elements).texts, elements.length :: (join elements).counts,
    encode 2 elements.length ++ (join elements).wire⟩

/-- Some string is longer than its length can say, or some list has more elements than its count can. -/
def Oversized (l : Layout) : Prop :=
  (∃ text ∈ l.texts, text.length > 2 ^ 32 - 5) ∨ ∃ count ∈ l.counts, count > 65535

@[simp]
theorem oversized_fixed (content : Bytes) : (fixed content).Oversized ↔ False := by
  simp [Oversized, fixed]

@[simp]
theorem oversized_text (content : Bytes) : (text content).Oversized ↔ content.length > 2 ^ 32 - 5 := by
  simp [Oversized, text]

@[simp]
theorem oversized_join_nil : (join []).Oversized ↔ False := by
  simp [Oversized, join]

@[simp]
theorem oversized_join_cons (first : Layout) (rest : List Layout) :
    (join (first :: rest)).Oversized ↔ first.Oversized ∨ (join rest).Oversized := by
  simp only [Oversized, join, mem_append, or_and_right, exists_or]
  exact or_or_or_comm

theorem oversized_join {layouts : List Layout} :
    (join layouts).Oversized ↔ ∃ l ∈ layouts, l.Oversized := by
  induction layouts with
  | nil => simp
  | cons first rest ih => simp [ih]

@[simp]
theorem oversized_counted (elements : List Layout) :
    (counted elements).Oversized ↔ elements.length > 65535 ∨ (join elements).Oversized := by
  simp only [Oversized, counted, mem_cons, exists_eq_or_imp]
  exact or_left_comm

variable {layout : α → Layout}

theorem length_join_map {size : α → Nat}
    (h : ∀ element, (layout element).wire.length = size element) (elements : List α) :
    (join (elements.map layout)).wire.length = (elements.map size).sum := by
  induction elements with
  | nil => rfl
  | cons element elements ih => rw [map_cons, map_cons, sum_cons, join, length_append, h, ih]

variable {elements : List α}

theorem counts_join_map {limit : Nat}
    (h : ∀ element ∈ elements, ∀ count ∈ (layout element).counts, count ≤ limit) :
    ∀ count ∈ (join (elements.map layout)).counts, count ≤ limit := by
  induction elements with
  | nil => nofun
  | cons element elements ih =>
    intro count hcount
    rcases mem_append.mp hcount with hcount | hcount
    · exact h element mem_cons_self count hcount
    · exact ih (fun other hother => h other (mem_cons_of_mem _ hother)) count hcount

end Layout

/-! ### Writing -/

/-- The write puts the layout, which fits unless it is oversized. -/
structure Emits (write : Write) (l : Layout) : Prop
    extends Puts .succeeds write (¬ l.Oversized) l.wire where
  texts_le : ∀ text ∈ l.texts, 4 + text.length ≤ l.wire.length

section
variable (h : Emits write l)
include h

theorem Emits.refuses (hover : l.Oversized) (buf : Buffer) : (write buf).1 = false := by
  rcases hwrite : write buf with ⟨_ | _, buf'⟩
  · rfl
  · exact absurd hover (h.stores hwrite).1

/-- Within the range of a length, only the counts can make a layout oversized. -/
theorem Emits.fills (hcounts : ∀ count ∈ l.counts, count ≤ 65535) {buf : Buffer}
    (hclear : buf.writeFailed = false) (hroom : buf.writePos + l.wire.length ≤ uint32Max) :
    ∃ buf', write buf = (true, buf') ∧ buf'.writeFailed = false ∧
      buf'.writePos = buf.writePos + l.wire.length := by
  have hfits : ¬ l.Oversized := by
    rintro (⟨text, htext, hlong⟩ | ⟨count, hcount, hmany⟩)
    · have hle := h.texts_le text htext
      simp only [uint32Max] at hroom
      omega
    · exact absurd (hcounts count hcount) (Nat.not_le.mpr hmany)
  obtain ⟨buf', hwrite, hready, -, hpos⟩ := h.appends hfits buf hclear (hroom.trans (by decide))
  exact ⟨buf', hwrite, hready, hpos⟩

end

theorem emits_writeFixed (content : Bytes) :
    Emits (·.writeFixed .succeeds content) (.fixed content) :=
  ⟨(puts_writeFixed _ content).congr (fun _ => rfl) (by simp), nofun⟩

theorem emits_writeUint8 (value : UInt8) :
    Emits (·.writeUint8 .succeeds value) (.fixed [value]) := emits_writeFixed _

theorem emits_writeUint16 (value : UInt16) :
    Emits (·.writeUint16 .succeeds value) (.fixed (encode 2 value.toNat)) := emits_writeFixed _

theorem emits_writeUint32 (value : UInt32) :
    Emits (·.writeUint32 .succeeds value) (.fixed (encode 4 value.toNat)) := emits_writeFixed _

theorem emits_writeString (content : Bytes) :
    Emits (·.writeString .succeeds content) (.text content) :=
  ⟨(puts_writePrefixed _ content).congr (fun _ => rfl) (by simp [uint32Max]), by simp [Layout.text]⟩

theorem Emits.nil : Emits (writeAll []) (.join []) :=
  ⟨Puts.nothing.congr (fun _ => rfl) (by simp), nofun⟩

/-- After a write that failed nothing is written. -/
theorem foldl_thenWrite_failed (writes : List Write) (buf : Buffer) :
    writes.foldl Message.thenWrite (false, buf) = (false, buf) := by
  induction writes with
  | nil => rfl
  | cons write writes ih => exact ih

theorem writeAll_cons (write : Write) (writes : List Write) (buf : Buffer) :
    writeAll (write :: writes) buf = Message.thenWrite (write buf) (writeAll writes) := by
  change writes.foldl Message.thenWrite (write buf) = _
  rcases write buf with ⟨_ | _, buf₁⟩
  · exact foldl_thenWrite_failed writes buf₁
  · rfl

theorem Emits.cons {writes : List Write}
    (hfirst : Emits write l) (hrest : Emits (writeAll writes) (.join rest)) :
    Emits (writeAll (write :: writes)) (.join (l :: rest)) := by
  refine ⟨(hfirst.andThen hrest.toPuts).congr (writeAll_cons write writes)
    (by rw [Layout.oversized_join_cons, not_or]), fun text htext => ?_⟩
  rw [Layout.join, length_append]
  rcases mem_append.mp htext with htext | htext
  · exact (hfirst.texts_le text htext).trans (Nat.le_add_right _ _)
  · exact (hrest.texts_le text htext).trans (Nat.le_add_left _ _)

theorem Emits.single (h : Emits write l) :
    Emits (writeAll [write]) (.join [l]) := Emits.cons h Emits.nil

theorem Emits.map {write : α → Write}
    (h : ∀ element, Emits (write element) (layout element)) (elements : List α) :
    Emits (writeAll (elements.map write)) (.join (elements.map layout)) := by
  induction elements with
  | nil => exact Emits.nil
  | cons element elements ih => exact Emits.cons (h element) ih

/-- A list is refused before anything is written of it. -/
theorem Emits.counted {write : α → Write}
    (h : ∀ element, Emits (write element) (layout element)) (elements : List α) :
    Emits (writeCounted .succeeds write elements) (.counted (elements.map layout)) := by
  have hall := Emits.cons (emits_writeUint16 (UInt16.ofNat elements.length))
    (Emits.map h elements)
  by_cases hmany : elements.length > 0xFFFF
  · refine ⟨(Puts.refused (fun _ => rfl) fun hfits => hfits ?_).congr (fun buf => if_pos hmany) Iff.rfl,
      hall.texts_le⟩
    exact (Layout.oversized_counted _).2 (.inl (by rwa [length_map]))
  have hcount : (UInt16.ofNat elements.length).toNat = elements.length := by
    rw [UInt16.toNat_ofNat']
    omega
  have hwire : (Layout.counted (elements.map layout)).wire = (Layout.join
      (.fixed (encode 2 (UInt16.ofNat elements.length).toNat) :: elements.map layout)).wire := by
    rw [hcount, Layout.counted, length_map]
    rfl
  refine ⟨?_, hwire ▸ hall.texts_le⟩
  rw [hwire]
  exact hall.congr (fun buf => if_neg hmany) (by simp [hmany])

/-! ### Reading -/

/-- The reader takes the value from the front, whatever follows. -/
def Reads (reader : View α) (wire : Bytes) (value : α) : Prop :=
  ∀ rest, reader (wire ++ rest) = some (value, rest)

theorem Reads.pure (value : α) : Reads (pure value : View α) [] value := fun _ => rfl

theorem View.bind_of_eq_some {first : View α} {next : α → View β} {view rest : Bytes} {value : α}
    (h : first view = some (value, rest)) : (first >>= next) view = next value rest := by
  change View.bind first next view = _
  rw [View.bind, h]

variable {result : β}

theorem Reads.bind {first : View α} {next : α → View β} {wire wire' : Bytes} {value : α}
    (hfirst : Reads first wire value) (hnext : Reads (next value) wire' result) :
    Reads (first >>= next) (wire ++ wire') result := by
  intro rest
  rw [append_assoc, View.bind_of_eq_some (hfirst (wire' ++ rest))]
  exact hnext rest

/-- The first field of a record that is not oversized, and then the others. -/
theorem Reads.cons {first : View α} {next : α → View β} {value : α}
    (hfirst : ¬ l.Oversized → Reads first l.wire value)
    (hnext : ¬ (Layout.join rest).Oversized → Reads (next value) (Layout.join rest).wire result)
    (hfits : ¬ (Layout.join (l :: rest)).Oversized) :
    Reads (first >>= next) (Layout.join (l :: rest)).wire result := by
  rw [Layout.oversized_join_cons, not_or] at hfits
  exact .bind (hfirst hfits.1) (hnext hfits.2)

theorem reads_uint8 (value : UInt8) : Reads tryReadUint8 [value] value := by
  intro rest
  rw [tryReadUint8_eq]
  have hencode : [value] = encode 1 value.toNat := by simp [encode]
  rw [hencode]
  exact readFixedWidth_encode value.toNat_lt (by simp) rest

theorem reads_uint16 (value : UInt16) : Reads tryReadUint16 (encode 2 value.toNat) value := by
  intro rest
  rw [tryReadUint16_eq]
  exact readFixedWidth_encode value.toNat_lt (by simp) rest

theorem reads_uint32 (value : UInt32) : Reads tryReadUint32 (encode 4 value.toNat) value := by
  intro rest
  rw [tryReadUint32_eq]
  exact readFixedWidth_encode value.toNat_lt (by simp) rest

theorem reads_text (h : ¬ content.length > 2 ^ 32 - 5) :
    Reads tryReadString (Layout.text content).wire content := by
  intro rest
  rw [tryReadString_eq]
  exact readWithPrefix_encode (by omega) rest

theorem reads_textField (h : ¬ (Layout.text content).Oversized) :
    Reads tryReadString (Layout.text content).wire content :=
  reads_text ((Layout.oversized_text content).not.1 h)

theorem reads_times {reader : View α}
    (h : ∀ element ∈ elements, Reads reader (layout element).wire element) :
    Reads (readTimes reader elements.length) (Layout.join (elements.map layout)).wire elements := by
  induction elements with
  | nil => exact .pure _
  | cons element elements ih =>
    refine .bind (h element mem_cons_self) ?_
    have hrest := ih fun other hother => h other (mem_cons_of_mem _ hother)
    rw [← append_nil (Layout.join (elements.map layout)).wire]
    exact .bind hrest (.pure _)

/-- The count and the elements, and then the fields behind them. -/
theorem reads_counted {reader : View α}
    {next : List α → View β}
    (h : ∀ element, ¬ (layout element).Oversized → Reads reader (layout element).wire element)
    (hnext : ¬ (Layout.join rest).Oversized → Reads (next elements) (Layout.join rest).wire result)
    (hfits : ¬ (Layout.join (.counted (elements.map layout) :: rest)).Oversized) :
    Reads (tryReadUint16 >>= fun count => readTimes reader count.toNat >>= next)
      (Layout.join (.counted (elements.map layout) :: rest)).wire result := by
  rw [Layout.oversized_join_cons, Layout.oversized_counted, not_or, not_or, length_map,
    Layout.oversized_join] at hfits
  obtain ⟨⟨hcount, hall⟩, hrest⟩ := hfits
  have hread : ∀ element ∈ elements, Reads reader (layout element).wire element :=
    fun element hmem => h element fun hover => hall ⟨layout element, List.mem_map_of_mem hmem, hover⟩
  have htoNat : (UInt16.ofNat elements.length).toNat = elements.length := by
    rw [UInt16.toNat_ofNat']
    omega
  have htimes : Reads (readTimes reader (UInt16.ofNat elements.length).toNat >>= next)
      ((Layout.join (elements.map layout)).wire ++ (Layout.join rest).wire) result := by
    rw [htoNat]
    exact .bind (reads_times hread) (hnext hrest)
  have hboth : Reads (tryReadUint16 >>= fun count => readTimes reader count.toNat >>= next) _ result :=
    .bind (reads_uint16 (UInt16.ofNat elements.length)) htimes
  rw [htoNat] at hboth
  simpa [Layout.counted, Layout.join] using hboth

open BufferRead

variable {α β : Type}

/-! ### Positions -/

/-- What lies between a position and a limit. -/
def window (data : Bytes) (limit pos : Nat) : Bytes := (data.take limit).drop pos

theorem length_window {data : Bytes} {limit : Nat} (hlimit : limit ≤ data.length) (pos : Nat) :
    (window data limit pos).length = limit - pos := by
  rw [window, length_drop, length_take, Nat.min_eq_left hlimit]

theorem drop_window (data : Bytes) (limit pos count : Nat) :
    (window data limit pos).drop count = window data limit (pos + count) := drop_drop

/-- The bytes of a read that stays below the limit. -/
theorem take_window {data : Bytes} {limit pos count : Nat} (h : count ≤ limit - pos) :
    (window data limit pos).take count = (data.drop pos).take count := by
  rw [window, drop_take, take_take, Nat.min_eq_left h]

/-- Reading at a position is reading the window. -/
def Agrees (reader : Positional α) (view : View α) : Prop :=
  ∀ data limit pos, limit ≤ data.length → pos ≤ limit →
    match view (window data limit pos) with
    | none => (reader data limit pos).1 = none
    | some (value, rest) => ∃ after, reader data limit pos = (some value, after) ∧ after ≤ limit ∧
        rest = window data limit after

/-! ### Bytes that follow -/

/-- A read that succeeds is not changed by bytes that follow. -/
def Extensible (reader : View α) : Prop :=
  ∀ view value rest more, reader view = some (value, rest) →
    reader (view ++ more) = some (value, rest ++ more)

/-- What a reader takes from the bytes of a record it does not take from less. -/
theorem Extensible.prefix_none {reader : View α} (h : Extensible reader) {wire pre : Bytes} {value : α}
    (hread : reader wire = some (value, [])) (hpre : pre <+: wire) (hne : pre ≠ wire) :
    reader pre = none := by
  obtain ⟨more, rfl⟩ := hpre
  cases hresult : reader pre with
  | none => rfl
  | some result =>
    have hlonger := h pre result.1 result.2 more hresult
    rw [hread] at hlonger
    have hrest : result.2 ++ more = [] := (Prod.mk.inj (Option.some.inj hlonger)).2.symm
    rw [(append_eq_nil_iff.1 hrest).2, append_nil] at hne
    exact absurd rfl hne

theorem extensible_take (count : Nat) (convert : Bytes → α) : Extensible fun view =>
    if count ≤ view.length then some (convert (view.take count), view.drop count) else none := by
  intro view value rest more h
  dsimp only at h ⊢
  split_ifs at h with hle
  cases h
  rw [if_pos (by rw [length_append]; omega), take_append_of_le_length hle,
    drop_append_of_le_length hle]

/-! ### The readers -/

/-- The view reads what the reader reads at a position, whatever follows. -/
structure Mirrors (reader : Positional α) (view : View α) : Prop where
  agrees : Agrees reader view
  extensible : Extensible view

theorem mirrors_fixed (width : Nat) (convert : Nat → α) :
    Mirrors (fun data limit pos => mapValue convert (readFixed width data limit pos))
      (readFixedWidth width convert) where
  agrees data limit pos hlimit hpos := by
    have hlength := length_window hlimit pos
    unfold readFixedWidth mapValue readFixed canRead
    by_cases hroom : width ≤ limit - pos
    · have hafter : pos + width ≤ limit := by omega
      simp [hlength, hroom, hpos, take_window hroom, drop_window, hafter]
    · simp [hlength, hroom]
  extensible := extensible_take width (convert ∘ LittleEndian.decode)

theorem mirrors_readUint8 : Mirrors readUint8 tryReadUint8 := tryReadUint8_eq ▸ mirrors_fixed 1 _

theorem mirrors_readUint16 : Mirrors readUint16 tryReadUint16 := tryReadUint16_eq ▸ mirrors_fixed 2 _

theorem mirrors_readUint32 : Mirrors readUint32 tryReadUint32 := tryReadUint32_eq ▸ mirrors_fixed 4 _

theorem Mirrors.pure (value : α) : Mirrors (pure value : Positional α) (pure value : View α) where
  agrees _ _ pos _ hpos := ⟨pos, rfl, hpos, rfl⟩
  extensible view made rest more h := by
    cases h
    rfl

theorem Mirrors.refuse : Mirrors (ByteReader.refuse : Positional α) View.fail where
  agrees _ _ _ _ _ := rfl
  extensible _ _ _ _ h := nomatch h

theorem Mirrors.bind {first : Positional α} {firstView : View α} {next : α → Positional β}
    {nextView : α → View β} (hfirst : Mirrors first firstView)
    (hnext : ∀ value, Mirrors (next value) (nextView value)) :
    Mirrors (first >>= next) (firstView >>= nextView) where
  agrees data limit pos hlimit hpos := by
    have h := hfirst.agrees data limit pos hlimit hpos
    change match View.bind firstView nextView (window data limit pos) with
      | none => (Positional.bind first next data limit pos).1 = none
      | some (value, rest) => ∃ after,
          Positional.bind first next data limit pos = (some value, after) ∧ after ≤ limit ∧
            rest = window data limit after
    unfold View.bind Positional.bind
    cases hview : firstView (window data limit pos) with
    | none =>
      rw [hview] at h
      have hpair : first data limit pos = (none, (first data limit pos).2) := Prod.ext h rfl
      rw [hpair]
    | some result =>
      obtain ⟨value, rest⟩ := result
      rw [hview] at h
      obtain ⟨after, hread, hafter, rfl⟩ := h
      rw [hread]
      exact (hnext value).agrees data limit after hlimit hafter
  extensible view value rest more h := by
    change View.bind firstView nextView view = some (value, rest) at h
    change View.bind firstView nextView (view ++ more) = some (value, rest ++ more)
    unfold View.bind at h ⊢
    cases hread : firstView view with
    | none =>
      rw [hread] at h
      cases h
    | some result =>
      obtain ⟨read, behind⟩ := result
      rw [hread] at h
      rw [hfirst.extensible view read behind more hread]
      exact (hnext read).extensible behind value rest more h

/-- A number of bytes, where none are not even checked. -/
theorem mirrors_take (len : UInt32) :
    Mirrors (fun data limit pos => if len = 0 then (some [], pos) else
        if canRead limit pos len.toNat then
          (some ((data.drop pos).take len.toNat), pos + len.toNat) else (none, pos))
      (fun view => if len.toNat ≤ view.length then
        some (view.take len.toNat, view.drop len.toNat) else none) where
  agrees data limit pos hlimit hpos := by
    have hlength := length_window hlimit pos
    by_cases hroom : len.toNat ≤ limit - pos
    · have hafter : pos + len.toNat ≤ limit := by omega
      by_cases hzero : len = 0
      · simp [hzero, hpos]
      · simp [hlength, canRead, hzero, hroom, hpos, take_window hroom, drop_window, hafter]
    · have hzero : len ≠ 0 := by
        rintro rfl
        simp at hroom
      simp [hlength, canRead, hroom, hzero]
  extensible := extensible_take len.toNat id

theorem mirrors_readString : Mirrors readString tryReadString := by
  rw [tryReadString_eq]
  convert mirrors_readUint32.bind mirrors_take using 1
  · funext data limit pos
    change readPrefixed data limit pos = Positional.bind _ _ data limit pos
    unfold readPrefixed Positional.bind
    rcases readUint32 data limit pos with ⟨_ | len, after⟩ <;> rfl
  · funext view
    change readWithPrefix view = View.bind _ _ view
    unfold readWithPrefix View.bind
    rcases tryReadUint32 view with _ | ⟨len, rest⟩ <;> rfl

theorem Mirrors.readTimes {reader : Positional α} {view : View α} (h : Mirrors reader view)
    (count : Nat) : Mirrors (Template.readTimes reader count) (readTimes view count) := by
  induction count with
  | zero => exact .pure _
  | succ count ih => exact .bind h fun _ => .bind ih fun _ => .pure _

theorem Mirrors.ite {condition : Prop} [Decidable condition] {first second : Positional α}
    {firstView secondView : View α} (hfirst : Mirrors first firstView)
    (hsecond : Mirrors second secondView) :
    Mirrors (if condition then first else second) (if condition then firstView else secondView) := by
  split_ifs
  · exact hfirst
  · exact hsecond

/-- A string that is read only under a condition, and empty otherwise. -/
theorem Mirrors.optional {condition : Prop} [Decidable condition] {next : Bytes → Positional α}
    {nextView : Bytes → View α} (h : ∀ text, Mirrors (next text) (nextView text)) :
    Mirrors (if condition then ByteReader.readText >>= next else Pure.pure [] >>= next)
      (if condition then tryReadString >>= nextView else Pure.pure [] >>= nextView) :=
  .ite (.bind mirrors_readString h) (.bind (.pure _) h)

theorem mirrors_deserializeMethodInfo : Mirrors Template.deserializeMethodInfo deserializeMethodInfo :=
  .bind mirrors_readUint32 fun _ => .bind mirrors_readString fun _ => .bind mirrors_readString fun _ =>
    .bind mirrors_readString fun _ => .bind mirrors_readUint32 fun _ => .pure _

theorem mirrors_deserializeInterfaceInfo :
    Mirrors Template.deserializeInterfaceInfo deserializeInterfaceInfo :=
  .bind mirrors_readUint32 fun _ => .bind mirrors_readString fun _ => .bind mirrors_readUint16 fun _ =>
    .bind (mirrors_deserializeMethodInfo.readTimes _) fun _ => .pure _

theorem mirrors_deserializeServiceInfo : Mirrors Template.deserializeServiceInfo deserializeServiceInfo :=
  .bind mirrors_readString fun _ => .bind mirrors_readString fun _ => .bind mirrors_readUint16 fun _ =>
    .bind mirrors_readString fun _ => .bind mirrors_readString fun _ =>
    .bind mirrors_readUint32 fun _ => .bind mirrors_readUint32 fun _ =>
    .bind mirrors_readUint16 fun _ =>
    .bind (mirrors_deserializeInterfaceInfo.readTimes _) fun _ => .pure _

theorem mirrors_deserializeRuntimeInfo : Mirrors Template.deserializeRuntimeInfo deserializeRuntimeInfo :=
  .bind mirrors_readUint32 fun _ => .bind mirrors_readString fun _ => .bind mirrors_readString fun _ =>
    .bind mirrors_readUint32 fun _ => .bind mirrors_readUint32 fun _ =>
    .bind mirrors_readUint16 fun _ => .bind (mirrors_readString.readTimes _) fun _ =>
    .bind mirrors_readUint32 fun _ => .bind mirrors_readString fun _ =>
    .bind mirrors_readUint32 fun _ => .bind mirrors_readUint32 fun _ =>
    .bind mirrors_readUint32 fun _ => .bind mirrors_readString fun _ => .pure _

theorem mirrors_deserializeSessionHello :
    Mirrors Template.deserializeSessionHello deserializeSessionHello :=
  .bind mirrors_readUint32 fun _ => .bind mirrors_readString fun _ => .bind mirrors_readUint32 fun _ =>
    .bind mirrors_readUint32 fun _ => .bind mirrors_readUint32 fun _ =>
    .bind mirrors_readUint32 fun _ => .bind mirrors_readString fun _ =>
    .bind mirrors_readString fun _ => .bind mirrors_readUint32 fun _ => .pure _

theorem mirrors_deserializeSessionHelloAck :
    Mirrors Template.deserializeSessionHelloAck deserializeSessionHelloAck :=
  .bind mirrors_readUint32 fun _ => .bind mirrors_readUint32 fun _ => .bind mirrors_readUint32 fun _ =>
    .bind mirrors_readUint32 fun _ => .bind mirrors_readUint32 fun _ => .pure _

theorem mirrors_readTopicSubscriptionSelector :
    Mirrors Template.readTopicSubscriptionSelector readTopicSubscriptionSelector :=
  .bind mirrors_readUint8 fun _ => .ite .refuse <|
    .optional fun _ => .optional fun _ => .optional fun _ => .pure _

open View

/-! ### Sizes -/

/-- The number of bytes of a string with its length. -/
def stringSize (content : Bytes) : Nat := 4 + content.length

def MethodInfo.wireSize (info : MethodInfo) : Nat :=
  4 + (stringSize info.name + (stringSize info.paramTypes + (stringSize info.returnType + 4)))

def InterfaceInfo.wireSize (info : InterfaceInfo) : Nat :=
  4 + (stringSize info.name + (2 + (info.methods.map MethodInfo.wireSize).sum))

def ServiceInfo.wireSize (info : ServiceInfo) : Nat :=
  stringSize info.name + (stringSize info.host + (2 + (stringSize info.hostId +
    (stringSize info.instanceId + (4 + (4 +
      (2 + (info.interfaces.map InterfaceInfo.wireSize).sum)))))))

/-- The number of methods fits a count on the wire. -/
def InterfaceInfo.Countable (info : InterfaceInfo) : Prop := info.methods.length ≤ 0xFFFF

/-- The number of interfaces and the numbers of their methods fit a count on the wire. -/
def ServiceInfo.Countable (info : ServiceInfo) : Prop :=
  info.interfaces.length ≤ 0xFFFF ∧ ∀ interface ∈ info.interfaces, interface.Countable

variable {α : Type} {view rest : Bytes}

/-! ### Reading -/

theorem View.bind_eq_some {β : Type} {first : View α} {next : α → View β} {value : β} :
    (first >>= next) view = some (value, rest) ↔
      ∃ a middle, first view = some (a, middle) ∧ next a middle = some (value, rest) := by
  change View.bind first next view = some (value, rest) ↔ _
  unfold View.bind
  rcases first view with _ | ⟨a, middle⟩
  · simp
  · simp

theorem View.pure_eq_some {made value : α} :
    (pure made : View α) view = some (value, rest) ↔ made = value ∧ view = rest := by
  change some (made, view) = some (value, rest) ↔ _
  rw [Option.some.injEq, Prod.mk.injEq]

/-- What a reader returns is as large as the bytes it takes. -/
def Takes {α : Type} (reader : View α) (size : α → Nat) : Prop :=
  ∀ view value rest, reader view = some (value, rest) → view.length = size value + rest.length

theorem takes_tryReadUint16 : Takes tryReadUint16 fun _ => 2 := fun _ _ _ h =>
  (readFixedWidth_consumes (tryReadUint16_eq ▸ h)).length_eq

theorem takes_tryReadUint32 : Takes tryReadUint32 fun _ => 4 := fun _ _ _ h =>
  (readFixedWidth_consumes (tryReadUint32_eq ▸ h)).length_eq

theorem takes_tryReadString : Takes tryReadString stringSize := fun _ _ _ h =>
  (readWithPrefix_consumes (tryReadString_eq ▸ h)).length_eq

theorem readTimes_bounds {reader : View α} {size : α → Nat} (hreader : Takes reader size)
    (fine : α → Prop) (hfine : ∀ view value rest, reader view = some (value, rest) → fine value)
    (count : Nat) {values : List α} (h : readTimes reader count view = some (values, rest)) :
    view.length = (values.map size).sum + rest.length ∧ values.length = count ∧
      ∀ value ∈ values, fine value := by
  induction count generalizing view values with
  | zero =>
    obtain ⟨rfl, rfl⟩ := pure_eq_some.mp h
    simp
  | succ count ih =>
    obtain ⟨value, middle, hfirst, h⟩ := bind_eq_some.mp h
    obtain ⟨values', last, hrest, h⟩ := bind_eq_some.mp h
    obtain ⟨rfl, rfl⟩ := pure_eq_some.mp h
    obtain ⟨hsize, hlength, hall⟩ := ih hrest
    have hone := hreader _ _ _ hfirst
    refine ⟨?_, by rw [length_cons, hlength], fun other hother => ?_⟩
    · rw [map_cons, sum_cons]
      omega
    · rcases mem_cons.mp hother with rfl | hlater
      · exact hfine _ _ _ hfirst
      · exact hall other hlater

theorem takes_deserializeMethodInfo : Takes deserializeMethodInfo MethodInfo.wireSize := by
  intro view info rest h
  obtain ⟨methodId, v₁, h₁, h⟩ := bind_eq_some.mp h
  obtain ⟨name, v₂, h₂, h⟩ := bind_eq_some.mp h
  obtain ⟨paramTypes, v₃, h₃, h⟩ := bind_eq_some.mp h
  obtain ⟨returnType, v₄, h₄, h⟩ := bind_eq_some.mp h
  obtain ⟨idlHash, v₅, h₅, h⟩ := bind_eq_some.mp h
  obtain ⟨rfl, rfl⟩ := pure_eq_some.mp h
  rw [takes_tryReadUint32 _ _ _ h₁, takes_tryReadString _ _ _ h₂, takes_tryReadString _ _ _ h₃,
    takes_tryReadString _ _ _ h₄, takes_tryReadUint32 _ _ _ h₅]
  simp only [MethodInfo.wireSize]
  omega

theorem deserializeInterfaceInfo_bounds {info : InterfaceInfo}
    (h : deserializeInterfaceInfo view = some (info, rest)) :
    view.length = info.wireSize + rest.length ∧ info.Countable := by
  obtain ⟨interfaceId, v₁, h₁, h⟩ := bind_eq_some.mp h
  obtain ⟨name, v₂, h₂, h⟩ := bind_eq_some.mp h
  obtain ⟨methodCount, v₃, h₃, h⟩ := bind_eq_some.mp h
  obtain ⟨methods, v₄, h₄, h⟩ := bind_eq_some.mp h
  obtain ⟨rfl, rfl⟩ := pure_eq_some.mp h
  obtain ⟨hsize, hcount, -⟩ := readTimes_bounds takes_deserializeMethodInfo
    (fun _ => True) (fun _ _ _ _ => trivial) _ h₄
  have hlt := methodCount.toNat_lt
  constructor
  · rw [takes_tryReadUint32 _ _ _ h₁, takes_tryReadString _ _ _ h₂, takes_tryReadUint16 _ _ _ h₃, hsize]
    simp only [InterfaceInfo.wireSize]
    omega
  · simp only [InterfaceInfo.Countable, hcount]
    omega

/-- A description that was read is no larger than the payload, and its counts fit the wire. -/
theorem deserializeServiceInfo_bounds {info : ServiceInfo}
    (h : deserializeServiceInfo view = some (info, rest)) :
    view.length = info.wireSize + rest.length ∧ info.Countable := by
  obtain ⟨name, v₁, h₁, h⟩ := bind_eq_some.mp h
  obtain ⟨host, v₂, h₂, h⟩ := bind_eq_some.mp h
  obtain ⟨port, v₃, h₃, h⟩ := bind_eq_some.mp h
  obtain ⟨hostId, v₄, h₄, h⟩ := bind_eq_some.mp h
  obtain ⟨instanceId, v₅, h₅, h⟩ := bind_eq_some.mp h
  obtain ⟨reqRingCapacity, v₆, h₆, h⟩ := bind_eq_some.mp h
  obtain ⟨respRingCapacity, v₇, h₇, h⟩ := bind_eq_some.mp h
  obtain ⟨ifaceCount, v₈, h₈, h⟩ := bind_eq_some.mp h
  obtain ⟨interfaces, v₉, h₉, h⟩ := bind_eq_some.mp h
  obtain ⟨rfl, rfl⟩ := pure_eq_some.mp h
  obtain ⟨hsize, hcount, hall⟩ := readTimes_bounds
    (fun _ _ _ hread => (deserializeInterfaceInfo_bounds hread).1) InterfaceInfo.Countable
    (fun _ _ _ hread => (deserializeInterfaceInfo_bounds hread).2) _ h₉
  have hlt := ifaceCount.toNat_lt
  refine ⟨?_, ?_, hall⟩
  · rw [takes_tryReadString _ _ _ h₁, takes_tryReadString _ _ _ h₂, takes_tryReadUint16 _ _ _ h₃,
      takes_tryReadString _ _ _ h₄, takes_tryReadString _ _ _ h₅, takes_tryReadUint32 _ _ _ h₆,
      takes_tryReadUint32 _ _ _ h₇, takes_tryReadUint16 _ _ _ h₈, hsize]
    simp only [ServiceInfo.wireSize]
    omega
  · simp only [hcount]
    omega

end OmniBinder
