import Mathlib.Logic.Equiv.List
import ParallaX.Codec.Reader
import ParallaX.Data.TreeMaps
import ParallaX.Quic.Varint

/-!
# Sealed secret bundles

Secrets sealed under a key of the host (`secret_store.rs`). Every call of
`sealInto` gives the bundle a fresh identifier and seals all entries again, so
that no entry opens outside the bundle that one call wrote.
-/

namespace ParallaX.SecretStore

open Std Option Codec

abbrev HostKey := Vector UInt8 32

def BUNDLE_VERSION : UInt32 := 1

def NONCE_LEN : Nat := 24

inductive SealError where
  | hostKeyMissing (path : String)
  | hostKeyPermissions (path : String)
  | hostKeyMalformed
  | hostKeyExists (path : String)
  | bundleMalformed
  | entryUnspecified
  | entryMissing (field : String)
  | decrypt
  | io
deriving DecidableEq

structure SealedEntry where
  salt : String
  nonce : String
  ciphertext : String
deriving DecidableEq

structure SealedBundle where
  version : UInt32
  id : String
  entries : TreeMap String SealedEntry

/-- Base64, HKDF and the AEAD. `unforgeable` and `independent` idealise the
last two: a ciphertext opens only under the key and the associated data it was
sealed with, and keys derived with distinct info strings are distinct. -/
structure Primitives where
  Key : Type
  encode : List UInt8 → String
  decode : String → Option (List UInt8)
  hkdf (salt ikm info : List UInt8) : Key
  encrypt (key : Key) (nonce aad msg : List UInt8) : List UInt8
  decrypt (key : Key) (nonce aad ciphertext : List UInt8) : Option (List UInt8)
  decode_encode (bytes : List UInt8) : decode (encode bytes) = some bytes
  decrypt_encrypt {key : Key} {nonce aad msg : List UInt8} :
    decrypt key nonce aad (encrypt key nonce aad msg) = some msg
  unforgeable {key other : Key} {nonce nonce' aad aad' msg msg' : List UInt8} :
    decrypt other nonce' aad' (encrypt key nonce aad msg) = some msg' → other = key ∧ aad' = aad
  independent {salt salt' ikm ikm' info info' : List UInt8} :
    hkdf salt ikm info = hkdf salt' ikm' info' → info = info'

/-- The random bytes of one `sealSecret`. -/
structure Draw where
  salt : Vector UInt8 32
  nonce : Vector UInt8 24

def asBytes (text : String) : List UInt8 := text.toByteArray.data.toList

def HKDF_INFO : List UInt8 := asBytes "parallax-seal-v1"

def bar : UInt8 := 0x7c

/-- Associated data that binds an entry to its bundle: `version | id | field`. -/
def entryAad (version : UInt32) (bundleId field : String) : List UInt8 :=
  Quic.Varint.toBeBytes 4 version.toNat ++ (bar :: asBytes bundleId ++ bar :: asBytes field)

variable (P : Primitives)

def freshBundleId (random : Vector UInt8 16) : String := P.encode random.toList

def deriveKek (hostKey : HostKey) (salt : List UInt8) (field : String) : P.Key :=
  P.hkdf salt hostKey.toList (HKDF_INFO ++ bar :: asBytes field)

def sealSecret (hostKey : HostKey) (field : String) (aad : List UInt8) (plaintext : String)
    (draw : Draw) : SealedEntry where
  salt := P.encode draw.salt.toList
  nonce := P.encode draw.nonce.toList
  ciphertext := P.encode (P.encrypt (deriveKek P hostKey draw.salt.toList field)
    draw.nonce.toList aad (asBytes plaintext))

def openEntry (hostKey : HostKey) (field : String) (aad : List UInt8) (entry : SealedEntry) :
    Except SealError String := do
  let salt ← (P.decode entry.salt).getDM (throw .bundleMalformed)
  let nonce ← (P.decode entry.nonce).getDM (throw .bundleMalformed)
  if nonce.length ≠ NONCE_LEN then throw .bundleMalformed
  let ciphertext ← (P.decode entry.ciphertext).getDM (throw .bundleMalformed)
  let kek := deriveKek P hostKey salt field
  let plaintext ← (P.decrypt kek nonce aad ciphertext).getDM (throw .decrypt)
  (String.fromUTF8? ⟨plaintext.toArray⟩).getDM (throw .decrypt)

/-! ## Sealing into a bundle -/

def openRetained (bundle : SealedBundle) (hostKey : HostKey)
    (replacements : List (String × String)) :
    List (String × SealedEntry) → Except SealError (List (String × String))
  | [] => return []
  | (field, entry) :: rest =>
    if replacements.any (·.1 == field) then openRetained bundle hostKey replacements rest
    else do
      let aad := entryAad bundle.version bundle.id field
      let plaintext ← openEntry P hostKey field aad entry
      return (field, plaintext) :: (← openRetained bundle hostKey replacements rest)

def sealEntries (version : UInt32) (id : String) (hostKey : HostKey) :
    List (String × String) → (Nat → Draw) → TreeMap String SealedEntry →
      TreeMap String SealedEntry
  | [], _, entries => entries
  | (field, plaintext) :: rest, draws, entries =>
    let entry := sealSecret P hostKey field (entryAad version id field) plaintext (draws 0)
    sealEntries version id hostKey rest (fun i => draws (i + 1)) (entries.insert field entry)

structure Call where
  bundle : SealedBundle
  hostKey : HostKey
  secrets : List (String × String)
  random : Vector UInt8 16
  draws : Nat → Draw

/-- The bundle after the call and what the call returns. -/
def sealInto (call : Call) : SealedBundle × Except SealError Unit :=
  let bundle := call.bundle
  match openRetained P bundle call.hostKey call.secrets bundle.entries.toList with
  | .error error => (bundle, .error error)
  | .ok retained =>
    let id := freshBundleId P call.random
    let entries :=
      sealEntries P bundle.version id call.hostKey (retained ++ call.secrets) call.draws ∅
    ({ bundle with id, entries }, .ok ())

/-! ## Opening a reference -/

/-- What a reference is resolved with: paths, the bundle that a file holds, and
the key of the host. -/
structure Host where
  resolvePath : String → String
  readToml : String → Except SealError SealedBundle
  loadHostKey : Except SealError HostKey

def splitFragment (spec : String) : String × Option String :=
  match spec.toList.reverse.span (· ≠ '#') with
  | (_, []) => (spec, none)
  | (fragment, _ :: path) => (.ofList path.reverse, some (.ofList fragment.reverse))

def readBundle (host : Host) (path : String) : Except SealError SealedBundle := do
  let bundle ← host.readToml path
  if bundle.version ≠ BUNDLE_VERSION then throw .bundleMalformed
  return bundle

/-- The entry is looked up before the key of the host is loaded. -/
def SealedBundle.open (bundle : SealedBundle) (loadHostKey : Except SealError HostKey)
    (field : String) : Except SealError String := do
  let entry ← bundle.entries[field]?.getDM (throw (.entryMissing field))
  openEntry P (← loadHostKey) field (entryAad bundle.version bundle.id field) entry

def openSealedReference (host : Host) (spec : String) : Except SealError String := do
  let (path, fragment) := splitFragment spec
  let field ← fragment.getDM (throw .entryUnspecified)
  let bundle ← readBundle host (host.resolvePath path)
  bundle.open P host.loadHostKey field

def Call.Writes (call : Call) (field : String) (entry : SealedEntry) : Prop :=
  (sealInto P call).2 = .ok () ∧ (sealInto P call).1.entries[field]? = some entry

/-! ## One entry -/

variable {P} {hostKey owner : HostKey} {field origin id text plaintext : String}
  {aad : List UInt8} {draw : Draw} {version : UInt32} {bundle : SealedBundle}
  {entry : SealedEntry} {error : SealError}

theorem asBytes_inj {other : String} (same : asBytes text = asBytes other) : text = other :=
  String.toByteArray_inj.mp (ByteArray.ext (Array.ext' same))

theorem fromUTF8?_asBytes : String.fromUTF8? ⟨(asBytes text).toArray⟩ = some text := by
  simp [asBytes, String.fromUTF8?, text.isValidUTF8, String.fromUTF8]

theorem eq_some_of_getDM {α : Type} {found : Option α} {value : α}
    (success : found.getDM (.error error : Except _ _) = .ok value) : found = some value := by
  cases found with
  | none => cases success
  | some =>
    cases success
    rfl

theorem openEntry_sealSecret {sealedAad : List UInt8} :
    openEntry P hostKey field aad (sealSecret P owner origin sealedAad plaintext draw) = (do
      let opened ← (P.decrypt (deriveKek P hostKey draw.salt.toList field) draw.nonce.toList aad
        (P.encrypt (deriveKek P owner draw.salt.toList origin) draw.nonce.toList sealedAad
          (asBytes plaintext))).getDM (throw .decrypt)
      (String.fromUTF8? ⟨opened.toArray⟩).getDM (throw .decrypt)) := by
  simp [openEntry, sealSecret, P.decode_encode, NONCE_LEN]

theorem openEntry_sealed :
    openEntry P hostKey field aad (sealSecret P hostKey field aad plaintext draw) =
      .ok plaintext := by
  rw [openEntry_sealSecret, P.decrypt_encrypt, getDM_some, pure_bind, fromUTF8?_asBytes]
  rfl

/-- The key fixes the field, and with it the associated data fixes the
identifier, even where identifiers and fields hold separators. -/
theorem binding_of_opens {sealedId : String} {sealedVersion : UInt32}
    (opens : openEntry P hostKey field (entryAad version id field)
      (sealSecret P owner origin (entryAad sealedVersion sealedId origin) plaintext draw) =
        .ok text) : field = origin ∧ id = sealedId := by
  rw [openEntry_sealSecret] at opens
  obtain ⟨opened, decrypted, -⟩ := exists_of_bind_eq_ok opens
  obtain ⟨keys, aads⟩ := P.unforgeable (eq_some_of_getDM decrypted)
  have infos := List.append_cancel_left (P.independent keys)
  obtain rfl := asBytes_inj (List.cons.inj infos).2
  have rest := (List.append_inj aads (by simp)).2
  exact ⟨rfl, asBytes_inj (List.append_cancel_right (List.cons.inj rest).2)⟩

/-! ## One call -/

theorem lookup_sealEntries :
    ∀ (items : List (String × String)) (draws : Nat → Draw)
      (entries : TreeMap String SealedEntry),
      ∃ draw, (sealEntries P version id hostKey items draws entries)[field]? =
        ((items.reverse.lookup field).map fun plaintext =>
          sealSecret P hostKey field (entryAad version id field) plaintext draw).or entries[field]?
  | [], draws, _ => ⟨draws 0, rfl⟩
  | (first, plaintext) :: rest, draws, entries => by
    obtain ⟨draw, later⟩ := lookup_sealEntries rest (fun i => draws (i + 1))
      (entries.insert first
        (sealSecret P hostKey first (entryAad version id first) plaintext (draws 0)))
    simp only [sealEntries, later, List.reverse_cons, List.lookup_append]
    cases found : rest.reverse.lookup field with
    | some => exact ⟨draw, by simp⟩
    | none =>
      refine ⟨draws 0, ?_⟩
      by_cases same : first = field
      · subst same
        simp
      · have ne : (field == first) = false := by simpa using Ne.symm same
        simp [List.lookup_cons, ne, Data.lookup_insert, same]

theorem mem_openRetained (field : String) {replacements : List (String × String)} :
    ∀ {entries : List (String × SealedEntry)} {retained : List (String × String)},
      openRetained P bundle hostKey replacements entries = .ok retained →
      (∀ text, (field, text) ∈ retained → ∃ entry, (field, entry) ∈ entries ∧
        openEntry P hostKey field (entryAad bundle.version bundle.id field) entry = .ok text) ∧
      ∀ entry, (field, entry) ∈ entries → replacements.any (·.1 == field) = false →
        ∃ text, (field, text) ∈ retained
  | [], retained, success => by
    cases success
    simp
  | (first, sealed) :: rest, retained, success => by
    unfold openRetained at success
    split at success
    · have later := mem_openRetained field success
      grind
    · obtain ⟨text, opened, more⟩ := exists_of_bind_eq_ok success
      obtain ⟨tail, tailSuccess, same⟩ := exists_of_bind_eq_ok more
      cases same
      have later := mem_openRetained field tailSuccess
      grind

variable {call : Call}

theorem sealInto_error (failed : (sealInto P call).2 = .error error) :
    (sealInto P call).1 = call.bundle := by
  unfold sealInto at failed ⊢
  grind

theorem sealInto_ok (success : (sealInto P call).2 = .ok ()) (field : String) :
    let sealed := (sealInto P call).1
    ∃ retained draw, openRetained P call.bundle call.hostKey call.secrets
        call.bundle.entries.toList = .ok retained ∧
      sealed.id = freshBundleId P call.random ∧
      sealed.entries[field]? = ((retained ++ call.secrets).reverse.lookup field).map fun text =>
        sealSecret P call.hostKey field (entryAad sealed.version sealed.id field) text draw := by
  simp only [sealInto] at success ⊢
  cases opened : openRetained P call.bundle call.hostKey call.secrets
      call.bundle.entries.toList with
  | error => simp [opened] at success
  | ok retained =>
    obtain ⟨draw, found⟩ := lookup_sealEntries (P := P) (retained ++ call.secrets) call.draws ∅
    exact ⟨retained, draw, rfl, rfl, by simpa using found⟩

theorem Call.Writes.sealed (writes : call.Writes P field entry) :
    ∃ version plaintext draw, entry = sealSecret P call.hostKey field
      (entryAad version (freshBundleId P call.random) field) plaintext draw := by
  obtain ⟨success, present⟩ := writes
  obtain ⟨retained, draw, -, fresh, found⟩ := sealInto_ok success field
  rw [present, eq_comm, map_eq_some_iff, fresh] at found
  obtain ⟨plaintext, -, rfl⟩ := found
  exact ⟨_, plaintext, draw, rfl⟩

theorem open_of_lookup (present : bundle.entries[field]? = some entry) :
    bundle.open P (.ok hostKey) field =
      openEntry P hostKey field (entryAad bundle.version bundle.id field) entry := by
  rw [SealedBundle.open, present]
  rfl

/-- Replaced fields show their last new plaintext, all others what they showed
before. -/
theorem open_sealInto (success : (sealInto P call).2 = .ok ()) (field : String) :
    (sealInto P call).1.open P (.ok call.hostKey) field =
      ((call.secrets.reverse.lookup field).map .ok).getD
        (call.bundle.open P (.ok call.hostKey) field) := by
  obtain ⟨retained, draw, opened, -, found⟩ := sealInto_ok success field
  obtain ⟨old, kept⟩ := mem_openRetained field opened
  simp only [TreeMap.mem_toList_iff_getElem?_eq_some] at old kept
  rw [List.reverse_append, List.lookup_append] at found
  cases replaced : call.secrets.reverse.lookup field with
  | some plaintext =>
    rw [replaced] at found
    rw [open_of_lookup found, openEntry_sealed]
    rfl
  | none =>
    rw [replaced, none_or] at found
    cases before : retained.reverse.lookup field with
    | some plaintext =>
      obtain ⟨first, rest, same, -⟩ := List.lookup_eq_some_iff.mp before
      obtain ⟨entry, present, shown⟩ := old plaintext (List.mem_reverse.mp (by simp [same]))
      rw [before] at found
      rw [open_of_lookup found, openEntry_sealed]
      exact ((open_of_lookup present).trans shown).symm
    | none =>
      have absent : call.bundle.entries[field]? = none := by
        by_contra present
        obtain ⟨entry, present⟩ := ne_none_iff_exists'.mp present
        obtain ⟨text, member⟩ := kept entry present <|
          List.any_eq_false.mpr fun pair named same => by
            simpa [eq_of_beq same] using
              List.lookup_eq_none_iff.mp replaced pair (List.mem_reverse.mpr named)
        simpa using List.lookup_eq_none_iff.mp before _ (List.mem_reverse.mpr member)
      simp only [SealedBundle.open, found, before, absent, map_none]
      rfl

/-! ## Histories -/

/-- However a bundle is put together from entries that calls wrote, one call
wrote everything that opens, each entry at the field where it opens. A call
keeps and replaces plaintexts as it is told, and changes nothing if it fails. -/
theorem bundles_not_mixed (P : Primitives) (history : List Call) (bundle : SealedBundle)
    (fresh : ((history.filter fun call => (sealInto P call).2.isOk).map fun call =>
      freshBundleId P call.random).Nodup)
    (assembled : ∀ (field : String) entry, bundle.entries[field]? = some entry →
      ∃ call ∈ history, ∃ origin, call.Writes P origin entry) :
    (∃ call, ∀ key field text, bundle.open P key field = .ok text → call ∈ history ∧
      ∃ entry, bundle.entries[field]? = some entry ∧ call.Writes P field entry) ∧
    (∀ host spec text, readBundle host (host.resolvePath (splitFragment spec).1) = .ok bundle →
      openSealedReference P host spec = .ok text → ∃ field, (splitFragment spec).2 = some field ∧
        bundle.open P host.loadHostKey field = .ok text) ∧
    (∀ call : Call, (sealInto P call).2 = .ok () → ∀ field,
      (sealInto P call).1.open P (.ok call.hostKey) field =
        ((call.secrets.reverse.lookup field).map .ok).getD
          (call.bundle.open P (.ok call.hostKey) field)) ∧
    ∀ call error, (sealInto P call).2 = .error error → (sealInto P call).1 = call.bundle := by
  refine ⟨?_, fun host spec text read opens => ?_, fun _ => open_sealInto,
    fun _ _ => sealInto_error⟩
  · -- The identifier in the file picks the call.
    have author {key : Except SealError HostKey} {field text : String}
        (opens : bundle.open P key field = .ok text) :
        ∃ call ∈ history, freshBundleId P call.random = bundle.id ∧
          ∃ entry, bundle.entries[field]? = some entry ∧ call.Writes P field entry := by
      obtain ⟨entry, found, opens⟩ := exists_of_bind_eq_ok opens
      obtain ⟨hostKey, -, opens⟩ := exists_of_bind_eq_ok opens
      have present := eq_some_of_getDM found
      obtain ⟨call, member, origin, writes⟩ := assembled field entry present
      obtain ⟨version, plaintext, draw, rfl⟩ := writes.sealed
      obtain ⟨rfl, same⟩ := binding_of_opens opens
      exact ⟨call, member, same.symm, _, present, writes⟩
    by_cases opens : ∃ key field text, bundle.open P key field = .ok text
    · obtain ⟨_, _, _, opens⟩ := opens
      obtain ⟨call, member, named, _, _, first⟩ := author opens
      refine ⟨call, fun key field text opens => ?_⟩
      obtain ⟨other, otherMember, otherNamed, entry, present, writes⟩ := author opens
      have same := List.inj_on_of_nodup_map fresh
        (List.mem_filter.mpr ⟨member, by rw [first.1]; rfl⟩)
        (List.mem_filter.mpr ⟨otherMember, by rw [writes.1]; rfl⟩) (named.trans otherNamed.symm)
      exact ⟨member, entry, present, same ▸ writes⟩
    · refine ⟨⟨bundle, default, [], default, fun _ => ⟨default, default⟩⟩, ?_⟩
      exact fun key field text success => (opens ⟨key, field, text, success⟩).elim
  · obtain ⟨field, named, opens⟩ := exists_of_bind_eq_ok opens
    obtain ⟨other, otherRead, opens⟩ := exists_of_bind_eq_ok opens
    obtain rfl := Except.ok.inj (read.symm.trans otherRead)
    exact ⟨field, eq_some_of_getDM named, opens⟩

local instance encodableByte : Encodable UInt8 :=
  .ofLeftInjection UInt8.toNat (fun n => some n.toUInt8) (by simp)

/-- Keys that are their info strings; texts and ciphertexts in unary. -/
def transparent : Primitives where
  Key := List UInt8
  encode bytes := .ofList (.replicate (Encodable.encode bytes) 'A')
  decode text := Encodable.decode text.toList.length
  hkdf _ _ info := info
  encrypt key _ aad msg := .replicate (Encodable.encode (key, aad, msg)) 0
  decrypt key _ aad ciphertext := do
    let (k, a, msg) ← Encodable.decode ciphertext.length
    if k = key ∧ a = aad then some msg else none
  decode_encode := by simp
  decrypt_encrypt := by simp
  unforgeable opens := by
    simp at opens
    grind
  independent same := same

def onlySecret (field text : String) (random : Vector UInt8 16) : Call where
  bundle := ⟨BUNDLE_VERSION, "", ∅⟩
  hostKey := default
  secrets := [(field, text)]
  random := random
  draws _ := ⟨default, default⟩

def onlyEntry (field text : String) (random : Vector UInt8 16) : SealedEntry :=
  sealSecret transparent default field
    (entryAad BUNDLE_VERSION (freshBundleId transparent random) field) text ⟨default, default⟩

theorem entries_onlySecret (field text : String) (random : Vector UInt8 16) :
    (sealInto transparent (onlySecret field text random)).1.entries =
      (∅ : TreeMap String SealedEntry).insert field (onlyEntry field text random) :=
  rfl

abbrev firstSecret : Call := onlySecret "psk" "text" default
abbrev firstEntry : SealedEntry := onlyEntry "psk" "text" default
abbrev secondSecret : Call := onlySecret "cert" "more" (.replicate 16 1)
abbrev secondEntry : SealedEntry := onlyEntry "cert" "more" (.replicate 16 1)

/-- The bundle of one call with the entry of another one put in. -/
def mixedBundle : SealedBundle :=
  let first := (sealInto transparent firstSecret).1
  { first with entries := first.entries.insert "cert" secondEntry }

/-- What the first call wrote opens, so what the second one wrote does not. -/
theorem bundles_not_mixed_two :
    mixedBundle.open transparent (.ok default) "psk" = .ok "text" ∧
      secondSecret.Writes transparent "cert" secondEntry ∧
      mixedBundle.entries["cert"]? = some secondEntry ∧
      ∀ key text, mixedBundle.open transparent key "cert" ≠ .ok text := by
  have distinct : freshBundleId transparent default ≠
      freshBundleId transparent (.replicate 16 1) := by
    intro same
    have decoded := congrArg transparent.decode same
    unfold freshBundleId at decoded
    rw [transparent.decode_encode, transparent.decode_encode] at decoded
    exact absurd (Option.some.inj decoded) (by decide)
  have lookup (field : String) : mixedBundle.entries[field]? =
      if "cert" = field then some secondEntry
      else if "psk" = field then some firstEntry else none := by
    change (((∅ : TreeMap String SealedEntry).insert "psk" firstEntry).insert "cert" _)[field]? = _
    simp [TreeMap.getElem?_insert]
  have wrote field text random : (onlySecret field text random).Writes transparent field
      (onlyEntry field text random) := by
    refine ⟨rfl, ?_⟩
    rw [entries_onlySecret, TreeMap.getElem?_insert_self]
  have assembled (field : String) entry (present : mixedBundle.entries[field]? = some entry) :
      ∃ call ∈ [firstSecret, secondSecret], ∃ origin, call.Writes transparent origin entry := by
    rw [lookup] at present
    split at present
    · exact ⟨_, .tail _ (.head _), "cert", Option.some.inj present ▸ wrote ..⟩
    split at present
    · exact ⟨_, .head _, "psk", Option.some.inj present ▸ wrote ..⟩
    · cases present
  obtain ⟨⟨call, author⟩, -, shown, -⟩ := bundles_not_mixed transparent
    [firstSecret, secondSecret] mixedBundle
    (show [freshBundleId transparent default, freshBundleId transparent (.replicate 16 1)].Nodup by
      simpa using distinct) assembled
  have opens : mixedBundle.open transparent (.ok default) "psk" = .ok "text" := by
    have found : mixedBundle.entries["psk"]? = some firstEntry := (lookup "psk").trans (by simp)
    have shows := shown firstSecret rfl "psk"
    rw [open_of_lookup (wrote "psk" "text" default).2] at shows
    rw [open_of_lookup found]
    exact shows
  refine ⟨opens, wrote .., lookup "cert", fun key text other => ?_⟩
  obtain ⟨member, entry, -, writes⟩ := author _ _ _ opens
  obtain ⟨-, _, -, also⟩ := author _ _ _ other
  have present := writes.2
  have alsoPresent := also.2
  obtain rfl | rfl : call = _ ∨ call = _ := by simpa using member
  · rw [entries_onlySecret, TreeMap.getElem?_insert] at alsoPresent
    simp at alsoPresent
  · rw [entries_onlySecret, TreeMap.getElem?_insert] at present
    simp at present

end ParallaX.SecretStore
