import RatchetSession.Store
import RatchetSession.Proofs.Message.Framing
set_option autoImplicit false

namespace RatchetSession

open Cbor (Framed FieldsRead)

theorem PrivateKey.framed (key : PrivateKey) (depth : Nat) :
    Framed (PrivateKey.reader (depth + 1)) key.toCbor key :=
  (Cbor.octets_framed (by decide) depth key.bytes).map PrivateKey.mk

theorem RootKey.framed (key : RootKey) (depth : Nat) :
    Framed (RootKey.reader (depth + 1)) key.toCbor key :=
  (Cbor.octets_framed (by decide) depth key.bytes).map RootKey.mk

theorem IdentityKey.framed {P : Suite} (key : IdentityKey P) (depth : Nat) :
    Framed (IdentityKey.reader P depth) key.toCbor key := by
  have bytes := Cbor.exactOctets_framed (by decide) depth key.bytes
  refine ⟨fun tail => ?_, bytes.starts⟩
  unfold IdentityKey.reader IdentityKey.toCbor
  rw [Computation.bind_of_ok (bytes.read tail)]
  simp [pure, EStateM.pure]

theorem KeyPair.framed (pair : KeyPair) (depth : Nat) :
    Framed (KeyPair.reader (depth + 2)) pair.toCbor pair := by
  have fields : FieldsRead KeyPair.fields (depth + 1) {}
      [("public_key", pair.publicKey.toCbor), ("private_key", pair.privateKey.toCbor)]
      ⟨some pair.publicKey, some pair.privateKey⟩ := by
    refine .cons (by decide) rfl (pair.publicKey.framed depth).read ?_
    exact .cons (by decide) rfl (pair.privateKey.framed depth).read (.nil _)
  exact Cbor.structure_framed fields rfl (by simp) (by simp [KeyPair.toCbor, Cbor.entryBytes])

theorem ChainKey.framed (key : ChainKey) (depth : Nat) :
    Framed (ChainKey.reader (depth + 2)) key.toCbor key := by
  have fields : FieldsRead ChainKey.fields (depth + 1) {}
      [("key", Cbor.numbers key.bytes.toList), ("index", Cbor.unsigned key.index.toNat)]
      ⟨some key.bytes, some key.index⟩ := by
    refine .cons (by decide) rfl (Cbor.octets_framed (by decide) depth key.bytes).read ?_
    exact .cons (by decide) rfl (Cbor.word_framed key.index).read (.nil _)
  exact Cbor.structure_framed fields rfl (by simp) (by simp [ChainKey.toCbor, Cbor.entryBytes])

theorem MessageKey.framed (key : MessageKey) (depth : Nat) :
    Framed (MessageKey.reader (depth + 2)) key.toCbor key := by
  have fields : FieldsRead MessageKey.fields (depth + 1) {}
      [("cipher_key", Cbor.numbers key.cipherKey.toList),
        ("nonce", Cbor.numbers key.nonce.toList), ("index", Cbor.unsigned key.index.toNat)]
      ⟨some key.cipherKey, some key.nonce, some key.index⟩ := by
    refine .cons (by decide) rfl (Cbor.octets_framed (by decide) depth key.cipherKey).read ?_
    refine .cons (by decide) rfl (Cbor.octets_framed (by decide) depth key.nonce).read ?_
    exact .cons (by decide) rfl (Cbor.word_framed key.index).read (.nil _)
  exact Cbor.structure_framed fields rfl (by simp) (by simp [MessageKey.toCbor, Cbor.entryBytes])

theorem SendingChain.framed (chain : SendingChain) (depth : Nat) :
    Framed (SendingChain.reader (depth + 3)) chain.toCbor chain := by
  have fields : FieldsRead SendingChain.fields (depth + 2) {}
      [("ratchet_key_pair", chain.ratchetKey.toCbor),
        ("remote_ratchet_key", chain.remoteKey.toCbor), ("chain_key", chain.chainKey.toCbor)]
      ⟨some chain.ratchetKey, some chain.remoteKey, some chain.chainKey⟩ := by
    refine .cons (by decide) rfl (chain.ratchetKey.framed depth).read ?_
    refine .cons (by decide) rfl (chain.remoteKey.framed (depth + 1)).read ?_
    exact .cons (by decide) rfl (chain.chainKey.framed depth).read (.nil _)
  exact Cbor.structure_framed fields rfl (by simp) (by simp [SendingChain.toCbor, Cbor.entryBytes])

namespace SkippedKeys

theorem insertEntry_above {counter : UInt32} {key : MessageKey}
    {entries : List (UInt32 × MessageKey)} (above : ∀ entry ∈ entries, entry.1 < counter) :
    insertEntry counter key entries = entries ++ [(counter, key)] := by
  induction entries with
  | nil => rfl
  | cons first rest ih =>
    have below := above first List.mem_cons_self
    have notLt : ¬ counter < first.1 := UInt32.not_lt.2 (UInt32.le_of_lt below)
    have notEq : counter ≠ first.1 := (UInt32.ne_of_lt below).symm
    rw [insertEntry, if_neg notLt, if_neg notEq,
      ih fun entry member => above entry (List.mem_cons_of_mem first member)]
    rfl

theorem foldl_insert {entries : List (UInt32 × MessageKey)} (keys : SkippedKeys)
    (ascending : (keys.entries ++ entries).Pairwise fun a b => a.1 < b.1) :
    (entries.foldl (fun keys entry => keys.insert entry.1 entry.2) keys).entries =
      keys.entries ++ entries := by
  induction entries generalizing keys with
  | nil => simp
  | cons first rest ih =>
    have above : ∀ entry ∈ keys.entries, entry.1 < first.1 := fun entry member =>
      (List.pairwise_append.1 ascending).2.2 entry member first List.mem_cons_self
    have filed : (keys.insert first.1 first.2).entries = keys.entries ++ [first] :=
      insertEntry_above above
    rw [List.foldl_cons, ih, filed, List.append_assoc]
    · rfl
    · rwa [filed, List.append_assoc]

theorem ofEntries_entries (keys : SkippedKeys) : ofEntries keys.entries = keys := by
  exact ext (foldl_insert empty keys.ascending)

theorem entry_framed (entry : UInt32 × MessageKey) (depth : Nat) :
    Framed (entryReader (depth + 2)) (entryToCbor entry) entry := by
  have counter := Cbor.word_framed entry.1
  have key := entry.2.framed depth
  constructor
  · intro tail
    unfold entryReader entryToCbor
    rw [List.append_assoc, Computation.bind_of_ok (counter.read _),
      Computation.bind_of_ok (key.read tail)]
    rfl
  · intro tail
    rw [entryToCbor, List.append_assoc]
    exact counter.starts _

theorem framed (keys : SkippedKeys) (depth : Nat) :
    Framed (reader (depth + 3)) keys.toCbor keys := by
  have entries : Framed (Cbor.mapOf entryReader (depth + 3)) keys.toCbor keys.entries :=
    Cbor.map_framed (depth + 2) fun entry _ => entry_framed entry depth
  have framed := entries.map ofEntries
  rwa [ofEntries_entries] at framed

end SkippedKeys

theorem ReceivingChain.framed (chain : ReceivingChain) (depth : Nat) :
    Framed (ReceivingChain.reader (depth + 4)) chain.toCbor chain := by
  have fields : FieldsRead ReceivingChain.fields (depth + 3) {}
      [("remote_ratchet_key", chain.remoteKey.toCbor),
        ("local_ratchet_key", chain.localKey.toCbor), ("chain_key", chain.chainKey.toCbor),
        ("skipped", chain.skipped.toCbor)]
      ⟨some chain.remoteKey, some chain.localKey, some chain.chainKey, some chain.skipped⟩ := by
    refine .cons (by decide) rfl (chain.remoteKey.framed (depth + 2)).read ?_
    refine .cons (by decide) rfl (chain.localKey.framed (depth + 2)).read ?_
    refine .cons (by decide) rfl (chain.chainKey.framed (depth + 1)).read ?_
    exact .cons (by decide) rfl (chain.skipped.framed depth).read (.nil _)
  exact Cbor.structure_framed fields rfl (by simp) (by simp [ReceivingChain.toCbor, Cbor.entryBytes])

theorem PendingPreKey.framed (p : PendingPreKey) (depth : Nat) :
    Framed (PendingPreKey.reader (depth + 2)) p.toCbor p := by
  have fields : FieldsRead PendingPreKey.fields (depth + 1) {}
      [("pre_key_id", Cbor.optional (fun id => Cbor.unsigned id.toNat) p.preKeyId),
        ("signed_pre_key_id", Cbor.unsigned p.signedPreKeyId.toNat),
        ("base_key", p.baseKey.toCbor)]
      ⟨some p.preKeyId, some p.signedPreKeyId, some p.baseKey⟩ := by
    refine .cons (by decide) rfl (Cbor.option_read fun id _ => Cbor.word_framed id) ?_
    refine .cons (by decide) rfl (Cbor.word_framed p.signedPreKeyId).read ?_
    exact .cons (by decide) rfl (p.baseKey.framed depth).read (.nil _)
  exact Cbor.structure_framed fields rfl (by simp) (by simp [PendingPreKey.toCbor, Cbor.entryBytes])

theorem Origin.reader_byte (origin : Origin) (tail : Bytes) :
    Origin.reader (Cbor.unsigned origin.byte.toNat ++ tail) = .ok origin tail := by
  unfold Origin.reader
  rw [Computation.bind_of_ok ((Cbor.byte_framed origin.byte).read tail)]
  cases origin <;> rfl

namespace Session

variable {P : Suite}

theorem framed (s : Session P) (depth : Nat) :
    Framed (reader P (depth + 6)) s.toCbor s := by
  have chains : Framed (Cbor.arrayOf ReceivingChain.reader (depth + 5))
      (Cbor.array ReceivingChain.toCbor s.receiving) s.receiving :=
    Cbor.array_framed (depth + 4) fun chain _ => chain.framed depth
  have pending : ∀ tail, Cbor.option (PendingPreKey.reader (depth + 5))
      (Cbor.optional PendingPreKey.toCbor s.pending ++ tail) = .ok s.pending tail :=
    Cbor.option_read fun p _ => p.framed (depth + 3)
  have fields : FieldsRead fields (depth + 5) ({} : Known P)
      [("version", Cbor.unsigned s.version.toNat),
        ("origin", Cbor.unsigned s.origin.byte.toNat),
        ("local_identity", s.localIdentity.toCbor),
        ("remote_identity", s.remoteIdentity.toCbor),
        ("base_key", s.baseKey.toCbor),
        ("root_key", s.rootKey.toCbor),
        ("sending_chain", s.sending.toCbor),
        ("receiving_chains", Cbor.array ReceivingChain.toCbor s.receiving),
        ("previous_counter", Cbor.unsigned s.previousCounter.toNat),
        ("pending_pre_key", Cbor.optional PendingPreKey.toCbor s.pending)]
      ⟨some s.version, some s.origin, some s.localIdentity, some s.remoteIdentity, some s.baseKey,
        some s.rootKey, some s.sending, some s.receiving, some s.previousCounter,
        some s.pending⟩ := by
    refine .cons (by decide) rfl (Cbor.byte_framed s.version).read ?_
    refine .cons (by decide) rfl s.origin.reader_byte ?_
    refine .cons (by decide) rfl (s.localIdentity.framed (depth + 5)).read ?_
    refine .cons (by decide) rfl (s.remoteIdentity.framed (depth + 5)).read ?_
    refine .cons (by decide) rfl (s.baseKey.framed (depth + 4)).read ?_
    refine .cons (by decide) rfl (s.rootKey.framed (depth + 4)).read ?_
    refine .cons (by decide) rfl (s.sending.framed (depth + 2)).read ?_
    refine .cons (by decide) rfl chains.read ?_
    refine .cons (by decide) rfl (Cbor.word_framed s.previousCounter).read ?_
    exact .cons (by decide) rfl pending (.nil _)
  refine Cbor.structure_framed fields rfl (by simp) ?_
  unfold toCbor
  simp [Cbor.entryBytes]

end Session

namespace Record

variable {P : Suite}

theorem framed (r : Record P) (depth : Nat) : Framed (reader P (depth + 8)) r.toBytes r := by
  have current : ∀ tail, Cbor.option (Session.reader P (depth + 7))
      (Cbor.optional Session.toCbor r.current ++ tail) = .ok r.current tail :=
    Cbor.option_read fun s _ => s.framed (depth + 1)
  have archived : Framed (Cbor.arrayOf (Session.reader P) (depth + 7))
      (Cbor.array Session.toCbor r.archived) r.archived :=
    Cbor.array_framed (depth + 6) fun s _ => s.framed depth
  have fields : FieldsRead fields (depth + 7) ({} : Known P)
      [("current", Cbor.optional Session.toCbor r.current),
        ("previous", Cbor.array Session.toCbor r.archived)]
      ⟨some r.current, some r.archived⟩ := by
    refine .cons (by decide) rfl current ?_
    exact .cons (by decide) rfl archived.read (.nil _)
  exact Cbor.structure_framed fields rfl (by simp) (by simp [toBytes, Cbor.entryBytes])

theorem ofBytes_append (r : Record P) (tail : Bytes) : ofBytes P (r.toBytes ++ tail) = .ok r := by
  have read := (r.framed (Cbor.maxDepth - 8)).read tail
  unfold ofBytes
  rw [show Cbor.maxDepth = Cbor.maxDepth - 8 + 8 from rfl, read]

theorem ofBytes_toBytes (r : Record P) : ofBytes P r.toBytes = .ok r := by
  have read := r.ofBytes_append []
  rwa [List.append_nil] at read

end Record

namespace Store

variable {P : Suite}

theorem loadRecord_saveRecord (st : Store P) (address : Address)
    (r : Record P) : (st.saveRecord address r).loadRecord address = .ok (some r) := by
  simp [loadRecord, saveRecord, Record.ofBytes_toBytes, Functor.map, Except.map]

theorem loadRecord_saveRecord_of_ne (st : Store P) {address other : Address}
    (differ : other ≠ address) (r : Record P) :
    (st.saveRecord address r).loadRecord other = st.loadRecord other := by
  simp only [loadRecord, saveRecord, Table.find?_insert_of_ne differ]

/-- The store after some records have been saved, one after another. -/
def saveRecords (st : Store P) (writes : List (Address × Record P)) : Store P :=
  writes.foldl (fun st write => st.saveRecord write.1 write.2) st

/-- Of any record all is kept: it is read back from its bytes, whatever follows them, and however
many records are saved, each address answers with the one saved last for it, or as before if there
is none. -/
theorem saveRecords_lossless :
    (∀ (r : Record P) (tail : Bytes), Record.ofBytes P (r.toBytes ++ tail) = .ok r) ∧
    ∀ (writes : List (Address × Record P)) (st : Store P) (address : Address),
      (st.saveRecords writes).loadRecord address =
        match writes.reverse.lookup address with
        | some r => .ok (some r)
        | none => st.loadRecord address := by
  refine ⟨Record.ofBytes_append, fun writes st address => ?_⟩
  induction writes generalizing st with
  | nil => rfl
  | cons write rest ih =>
    obtain ⟨written, r⟩ := write
    simp only [saveRecords, List.foldl_cons] at ih ⊢
    rw [ih (st.saveRecord written r), List.reverse_cons, List.lookup_append]
    cases rest.reverse.lookup address with
    | some last => rfl
    | none =>
      by_cases same : address = written
      · subst same
        simp [loadRecord_saveRecord]
      · have other : [(written, r)].lookup address = none := by
          simp [List.lookup_cons, beq_eq_false_iff_ne.2 same]
        rw [other, Option.or_none]
        exact st.loadRecord_saveRecord_of_ne same r

end Store

end RatchetSession
