import RatchetSession.Cbor.Reader
import RatchetSession.Proofs.Computation
import RatchetSession.Proofs.Octets
set_option autoImplicit false

namespace RatchetSession.Cbor

open RatchetSession.Computation (bind_of_ok)

def Major.token : Major → Nat → Token
  | unsigned, value => .unsigned value
  | negative, value => .negative value
  | bytes, value => .bytes (some value)
  | text, value => .text (some value)
  | array, value => .array (some value)
  | map, value => .map (some value)
  | tag, value => .tag value

/-- A token that begins an item and stands for neither a simple value nor a tag. -/
def Token.plain : Token → Bool
  | .unsigned _ | .negative _ | .bytes _ | .text _ | .array _ | .map _ => true
  | _ => false

theorem splitOnto_append (taken bytes tail : Bytes) :
    splitOnto taken bytes.length (bytes ++ tail) = some (taken.reverse ++ bytes, tail) := by
  induction bytes generalizing taken with
  | nil => simp [splitOnto]
  | cons b bytes ih => simp [splitOnto, ih]

theorem take_append {n : Nat} {bytes : Bytes} (h : bytes.length = n) (tail : Bytes) :
    take n (bytes ++ tail) = .ok bytes tail := by
  subst h
  simp [take, splitOnto_append]

def Major.code : Major → Nat
  | unsigned => 0
  | negative => 1
  | bytes => 2
  | text => 3
  | array => 4
  | map => 5
  | tag => 6

theorem bits_small (major : Major) : ∀ minor < 32,
    (major.bits ||| minor.toUInt8).toNat % 32 = minor ∧
      (major.bits ||| minor.toUInt8).toNat / 32 = major.code := by
  cases major <;> decide

theorem ofHead_number (major : Major) (minor value : Nat) :
    Token.ofHead major.code minor (some value) = .ok (major.token value) := by
  cases major <;> rfl

/-- A first byte, with the argument that its low bits announce, is one token. -/
theorem token_cons {major : Major} (minor : Nat) {value : Nat} {rest tail : Bytes} (small : minor < 32)
    (found : argument minor rest = .ok (some value) tail) :
    token ((major.bits ||| minor.toUInt8) :: rest) = .ok (major.token value) tail := by
  obtain ⟨low, high⟩ := bits_small major minor small
  simp only [token, low, high, found, ofHead_number]

theorem argument_bytes (n : Nat) {value : Nat} (h : value < 256 ^ n) (tail : Bytes) :
    ((fun bytes => some (beNat bytes)) <$> take n) (natBE n value ++ tail) =
      .ok (some value) tail := by
  simp [Functor.map, EStateM.map, take_append (natBE_length n value), beNat_natBE h]

theorem token_head (major : Major) {value : Nat} (h : value < 0x10000000000000000) (tail : Bytes) :
    token (head major value ++ tail) = .ok (major.token value) tail := by
  unfold head
  split
  · rename_i tiny
    exact token_cons value (by omega) (by simp [argument, tiny, pure, EStateM.pure])
  split
  · rename_i small
    exact token_cons 24 (by decide) (argument_bytes 1 (by simpa using small) tail)
  split
  · rename_i small
    exact token_cons 25 (by decide) (argument_bytes 2 (by simpa using small) tail)
  split
  · rename_i small
    exact token_cons 26 (by decide) (argument_bytes 4 (by simpa using small) tail)
  · exact token_cons 27 (by decide) (argument_bytes 8 (by simpa using h) tail)

/-- The reader takes exactly these bytes from the front of any input; they begin with a plain
token. -/
structure Framed {α : Type} (reader : Reader α) (bytes : Bytes) (a : α) : Prop where
  read : ∀ tail, reader (bytes ++ tail) = .ok a tail
  starts : ∀ tail, ∃ t rest, token (bytes ++ tail) = .ok t rest ∧ t.plain = true

theorem Framed.map {α β : Type} {reader : Reader α} {bytes : Bytes} {a : α}
    (h : Framed reader bytes a) (f : α → β) : Framed (f <$> reader) bytes (f a) := by
  refine ⟨fun tail => ?_, h.starts⟩
  simp [Functor.map, EStateM.map, h.read]

theorem Framed.ne_nil {α : Type} {reader : Reader α} {bytes : Bytes} {a : α}
    (h : Framed reader bytes a) : bytes ≠ [] := by
  rintro rfl
  obtain ⟨t, rest, started, -⟩ := h.starts []
  cases started

theorem untagged_of_token {s rest : Bytes} {t : Token} (h : token s = .ok t rest)
    (plain : t.plain = true) : untagged s = .ok t rest := by
  unfold untagged
  cases s with
  | nil => cases h
  | cons b s =>
    simp only [untaggedFrom, h]
    cases t <;> first | rfl | cases plain

theorem number_framed {bound value : Nat} (fits : value < bound) (h : value < 0x10000000000000000) :
    Framed (number bound) (unsigned value) value := by
  refine ⟨fun tail => ?_, fun tail => ⟨_, tail, token_head .unsigned h tail, rfl⟩⟩
  have started := token_head .unsigned h tail
  unfold number unsigned
  cases s : head .unsigned value ++ tail with
  | nil => rw [s] at started; cases started
  | cons b rest =>
    rw [s] at started
    simp only [integerFrom, started, Major.token, if_pos fits]

theorem byte_framed (b : UInt8) : Framed byte (unsigned b.toNat) b := by
  have small : b.toNat < 0x100 := b.toNat_lt
  simpa [byte] using (number_framed small (by omega)).map (·.toUInt8)

theorem word_framed (w : UInt32) : Framed word (unsigned w.toNat) w := by
  have small : w.toNat < 0x100000000 := w.toNat_lt
  simpa [word] using (number_framed small (by omega)).map (·.toUInt32)

theorem items_append {α : Type} {item : Reader α} {write : α → Bytes} {as : List α}
    (framed : ∀ a ∈ as, Framed item (write a) a) (acc : List α) (clock tail : Bytes) :
    (as.length ≤ clock.length →
      items item acc clock (some as.length) (as.flatMap write ++ tail) =
        .ok (acc.reverse ++ as) tail) ∧
    (as.length < clock.length →
      items item acc clock none (as.flatMap write ++ stop :: tail) =
        .ok (acc.reverse ++ as) tail) := by
  induction as generalizing acc clock with
  | nil =>
    refine ⟨fun _ => by simp [items], fun enough => ?_⟩
    cases clock with
    | nil => cases enough
    | cons b clock =>
      have stopped : token (stop :: tail) = .ok .stop tail := rfl
      simp [items, more, stopped]
  | cons a as ih =>
    have first := framed a List.mem_cons_self
    have others : ∀ b ∈ as, Framed item (write b) b :=
      fun b member => framed b (List.mem_cons_of_mem a member)
    constructor
    · intro enough
      cases clock with
      | nil => cases enough
      | cons b clock =>
        obtain ⟨counted, -⟩ := ih others (a :: acc) clock
        simp only [List.length_cons, List.flatMap_cons, List.append_assoc, items, more, pure,
          EStateM.pure, first.read]
        rw [counted (by simpa using enough)]
        simp
    · intro enough
      cases clock with
      | nil => cases enough
      | cons b clock =>
        obtain ⟨-, stopped⟩ := ih others (a :: acc) clock
        obtain ⟨t, rest, started, plain⟩ := first.starts (as.flatMap write ++ stop :: tail)
        have going : more none (write a ++ (as.flatMap write ++ stop :: tail)) =
            .ok (some none) (write a ++ (as.flatMap write ++ stop :: tail)) := by
          simp only [more, started]
          cases t <;> first | rfl | cases plain
        simp only [List.flatMap_cons, List.append_assoc, items, going, first.read]
        rw [stopped (by simpa using enough)]
        simp

theorem length_le_flatMap {α : Type} {item : Reader α} {write : α → Bytes} {as : List α}
    (framed : ∀ a ∈ as, Framed item (write a) a) : as.length ≤ (as.flatMap write).length := by
  induction as with
  | nil => exact Nat.le_refl 0
  | cons a as ih =>
    have first := List.length_pos_iff.2 (framed a List.mem_cons_self).ne_nil
    have rest := ih fun b member => framed b (List.mem_cons_of_mem a member)
    simp only [List.length_cons, List.flatMap_cons, List.length_append]
    omega

def Major.counted : Major → Option Nat → Token
  | array, count => .array count
  | _, count => .map count

theorem container_items {major : Major} (kind : major = .array ∨ major = .map) {α : Type}
    {item : Reader α} {write : α → Bytes} {as : List α}
    (framed : ∀ a ∈ as, Framed item (write a) a) (tail : Bytes) :
    ∃ count rest,
      token (container major as.length (as.flatMap write) ++ tail) =
        .ok (major.counted count) rest ∧
      items item [] rest count rest = .ok as tail := by
  have enough := length_le_flatMap framed
  unfold container
  split
  · rename_i small
    refine ⟨some as.length, as.flatMap write ++ tail, ?_, ?_⟩
    · rw [List.append_assoc, token_head major small]
      rcases kind with rfl | rfl <;> rfl
    · have counted := (items_append framed [] (as.flatMap write ++ tail) tail).1
        (by rw [List.length_append]; omega)
      simpa using counted
  · refine ⟨none, as.flatMap write ++ stop :: tail, ?_, ?_⟩
    · rcases kind with rfl | rfl <;> simp [openHead] <;> rfl
    · have stopped := (items_append framed [] (as.flatMap write ++ stop :: tail) tail).2
        (by rw [List.length_append, List.length_cons]; omega)
      simpa using stopped

theorem array_framed {α : Type} {item : Nat → Reader α} {write : α → Bytes} {as : List α}
    (depth : Nat) (framed : ∀ a ∈ as, Framed (item depth) (write a) a) :
    Framed (arrayOf item (depth + 1)) (array write as) as := by
  constructor
  · intro tail
    obtain ⟨count, rest, started, read⟩ := container_items (.inl rfl) framed tail
    have opened : untagged (array write as ++ tail) = .ok (.array count) rest :=
      untagged_of_token started rfl
    simp only [arrayOf, opened, nested, read]
  · intro tail
    obtain ⟨count, rest, started, -⟩ := container_items (.inl rfl) framed tail
    exact ⟨_, rest, started, rfl⟩

theorem map_framed {α : Type} {entry : Nat → Reader α} {write : α → Bytes} {as : List α}
    (depth : Nat) (framed : ∀ a ∈ as, Framed (entry depth) (write a) a) :
    Framed (mapOf entry (depth + 1)) (map write as) as := by
  constructor
  · intro tail
    obtain ⟨count, rest, started, read⟩ := container_items (.inr rfl) framed tail
    have opened : untagged (map write as ++ tail) = .ok (.map count) rest :=
      untagged_of_token started rfl
    simp only [mapOf, opened, nested, read]
  · intro tail
    obtain ⟨count, rest, started, -⟩ := container_items (.inr rfl) framed tail
    exact ⟨_, rest, started, rfl⟩

theorem byteSequence_framed (depth : Nat) (bytes : Bytes) :
    Framed (byteSequence (depth + 1)) (numbers bytes) bytes := by
  have framed : ∀ b ∈ bytes, Framed byte (unsigned b.toNat) b := fun b _ => byte_framed b
  constructor
  · intro tail
    obtain ⟨count, rest, started, read⟩ := container_items (.inl rfl) framed tail
    have opened : untagged (numbers bytes ++ tail) = .ok (.array count) rest :=
      untagged_of_token started rfl
    simp only [byteSequence, opened, nested, read]
  · intro tail
    obtain ⟨count, rest, started, -⟩ := container_items (.inl rfl) framed tail
    exact ⟨_, rest, started, rfl⟩

theorem firstBytes_append (acc bytes tail : Bytes) (more : Nat) :
    firstBytes acc bytes.length (some (bytes.length + more))
      (bytes.flatMap (fun b => unsigned b.toNat) ++ tail) =
      .ok (acc.reverse ++ bytes, some more) tail := by
  induction bytes generalizing acc with
  | nil => simp [firstBytes]
  | cons b bytes ih =>
    have count : (b :: bytes).length + more = bytes.length + more + 1 := by
      rw [List.length_cons]; omega
    rw [count]
    simp only [List.length_cons, List.flatMap_cons, List.append_assoc, firstBytes, Cbor.more, pure,
      EStateM.pure, (byte_framed b).read]
    rw [ih]
    simp

theorem octets_framed {n : Nat} (small : n < 0x10000000000000000) (depth : Nat) (o : Octets n) :
    Framed (octets n (depth + 1)) (numbers o.toList) o := by
  obtain ⟨bytes, rfl⟩ := o
  have written : numbers bytes =
      head .array bytes.length ++ bytes.flatMap fun b => unsigned b.toNat := by
    simp only [numbers, array, container, if_pos small]
  rw [written]
  constructor
  · intro tail
    have started := token_head .array small (bytes.flatMap (fun b => unsigned b.toNat) ++ tail)
    have opened := untagged_of_token started rfl
    have read := firstBytes_append [] bytes tail 0
    simp only [List.reverse_nil, List.nil_append, Nat.add_zero] at read
    rw [List.append_assoc]
    simp only [octets, opened, nested, Major.token]
    rw [bind_of_ok read]
    simp [toOctets, Octets.ofList?, pure, EStateM.pure]
  · intro tail
    refine ⟨_, _, by rw [List.append_assoc]; exact token_head .array small _, rfl⟩

theorem exactOctets_framed {n : Nat} (small : n ≤ bufferSize) (depth : Nat) (o : Octets n) :
    Framed (exactOctets n depth) (byteString o.toList) o := by
  obtain ⟨bytes, rfl⟩ := o
  have fits : bytes.length < 0x10000000000000000 := by
    have buffer : bufferSize < 0x10000000000000000 := by decide
    omega
  constructor
  · intro tail
    have started := token_head .bytes fits (bytes ++ tail)
    have opened := untagged_of_token started rfl
    rw [byteString, List.append_assoc]
    simp only [exactOctets, opened, Major.token, if_pos small]
    rw [bind_of_ok (take_append rfl tail)]
    simp [toOctets, Octets.ofList?, pure, EStateM.pure]
  · intro tail
    refine ⟨_, _, by rw [byteString, List.append_assoc]; exact token_head .bytes fits _, rfl⟩

theorem option_read {α : Type} {item : Reader α} {write : α → Bytes} {value : Option α}
    (framed : ∀ a ∈ value, Framed item (write a) a) (tail : Bytes) :
    option item (optional write value ++ tail) = .ok value tail := by
  cases value with
  | none => rfl
  | some a =>
    have item := framed a rfl
    obtain ⟨t, rest, started, plain⟩ := item.starts tail
    have read := (item.map some).read tail
    simp only [optional, option, started]
    cases t <;> first | exact read | cases plain

/-- A field name of ASCII characters, short enough to be read. -/
def plainName (name : String) : Bool :=
  (ascii name).length ≤ bufferSize && (ascii name).all (· ≤ 0x7f)

theorem fieldName_key {name : String} (plain : plainName name = true) (tail : Bytes) :
    fieldName (key name ++ tail) = .ok (ascii name) tail := by
  simp only [plainName, Bool.and_eq_true, decide_eq_true_eq, List.all_eq_true] at plain
  obtain ⟨short, low⟩ := plain
  have fits : (ascii name).length < 0x10000000000000000 := by
    have buffer : bufferSize < 0x10000000000000000 := by decide
    omega
  have opened := untagged_of_token (token_head .text fits (ascii name ++ tail)) rfl
  have whole : Utf8.remainder (ascii name) = [] := Utf8.remainder_of_le low
  rw [key, List.append_assoc]
  simp only [fieldName, opened, Major.token, if_pos short, utf8]
  rw [bind_of_ok (take_append rfl tail)]
  simp [whole, pure, EStateM.pure]

def entryBytes (entries : List (String × Bytes)) : Bytes :=
  entries.flatMap fun entry => key entry.1 ++ entry.2

/-- The fields take what is known from one value to another by reading the entries in turn. -/
inductive FieldsRead {σ : Type} (fields : Fields σ) (depth : Nat) :
    σ → List (String × Bytes) → σ → Prop where
  | nil (known : σ) : FieldsRead fields depth known [] known
  | cons {α : Type} {known last : σ} {name : String} {value : Bytes} {rest : List (String × Bytes)}
      {reader : Reader α} {set : α → σ} {a : α} (plain : plainName name = true)
      (field : fields depth (ascii name) known = some (set <$> reader))
      (read : ∀ tail, reader (value ++ tail) = .ok a tail)
      (others : FieldsRead fields depth (set a) rest last) :
      FieldsRead fields depth known ((name, value) :: rest) last

theorem fieldsFrom_entries {σ : Type} {fields : Fields σ} {depth : Nat} {known last : σ}
    {entries : List (String × Bytes)} (h : FieldsRead fields depth known entries last)
    (clock tail : Bytes) (enough : entries.length ≤ clock.length) :
    fieldsFrom fields depth clock (some entries.length) known (entryBytes entries ++ tail) =
      .ok last tail := by
  induction h generalizing clock with
  | nil known => simp [fieldsFrom, entryBytes]
  | @cons α known last name value rest reader set a plain field read others ih =>
    cases clock with
    | nil => cases enough
    | cons b clock =>
      have written : entryBytes ((name, value) :: rest) ++ tail =
          key name ++ (value ++ (entryBytes rest ++ tail)) := by simp [entryBytes]
      have taken : (set <$> reader) (value ++ (entryBytes rest ++ tail)) =
          .ok (set a) (entryBytes rest ++ tail) := by
        simp [Functor.map, EStateM.map, read]
      rw [written]
      simp only [List.length_cons, fieldsFrom, more, pure, EStateM.pure, fieldName_key plain, field,
        taken]
      exact ih clock (by simpa using enough)

theorem head_length_pos (major : Major) (value : Nat) : 0 < (head major value).length := by
  unfold head
  repeat' split
  all_goals simp

theorem length_le_entryBytes (entries : List (String × Bytes)) :
    entries.length ≤ (entryBytes entries).length := by
  induction entries with
  | nil => exact Nat.le_refl 0
  | cons entry entries ih =>
    have first := head_length_pos .text (ascii entry.1).length
    simp only [entryBytes, key, List.flatMap_cons, List.length_append, List.length_cons] at ih ⊢
    omega

/-- A structure is read back when its fields are, in the order they were written. -/
theorem structure_framed {σ α : Type} {fields : Fields σ} {start known : σ}
    {finish : σ → Option α} {depth : Nat} {entries : List (String × Bytes)} {bytes : Bytes} {a : α}
    (read : FieldsRead fields depth start entries known) (complete : finish known = some a)
    (few : entries.length < 0x10000000000000000)
    (written : bytes = mapHead entries.length ++ entryBytes entries) :
    Framed (structureOf fields start finish (depth + 1)) bytes a := by
  subst written
  constructor
  · intro tail
    have opened := untagged_of_token (token_head .map few (entryBytes entries ++ tail)) rfl
    have enough := length_le_entryBytes entries
    have all := fieldsFrom_entries read (entryBytes entries ++ tail) tail
      (by rw [List.length_append]; omega)
    rw [mapHead, List.append_assoc]
    simp only [structureOf, opened, Major.token, nested, all, complete]
  · intro tail
    refine ⟨_, _, by rw [mapHead, List.append_assoc]; exact token_head .map few _, rfl⟩

end RatchetSession.Cbor
