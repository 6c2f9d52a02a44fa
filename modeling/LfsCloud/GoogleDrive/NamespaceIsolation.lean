import LfsCloud.GoogleDrive.ObjectKey

/-!
# Isolation of namespaces

Whether a file that was written for one object of one repository can pass as an object of
another one.
-/

namespace LfsCloud

open DriveQuery

variable {sha256Hex : String → String} {key : GoogleDriveObjectKey} {file : GoogleDriveObjectFile}

/-- The file is accepted as the object. -/
def Accepted (sha256Hex : String → String) (key : GoogleDriveObjectKey)
    (file : GoogleDriveObjectFile) : Prop :=
  ∃ storage status stored, verifyDriveObjectFile storage key
    (key.expectedAppProperties sha256Hex) status file = .ok stored

/-- No file with the properties of the first object is accepted as the second. -/
def Isolated (sha256Hex : String → String) (repoNamespace : String) (object : LfsObject)
    (repoNamespace' : String) (object' : LfsObject) : Prop :=
  ∀ key key', GoogleDriveObjectKey.new repoNamespace object = .ok key →
    GoogleDriveObjectKey.new repoNamespace' object' = .ok key' →
      ∀ file : GoogleDriveObjectFile,
        file.appProperties = propertyTable (key.expectedAppProperties sha256Hex).pairs →
          ¬Accepted sha256Hex key' file

/-- The second namespace is the first one after trimming, or it is the digest that stands
for the first one, which is too long for a property. -/
def Aliased (sha256Hex : String → String) (repoNamespace repoNamespace' : String) : Prop :=
  ∃ trimmed trimmed', validateRepoNamespace repoNamespace = .ok trimmed ∧
    validateRepoNamespace repoNamespace' = .ok trimmed' ∧
      (trimmed' = trimmed ∨ (maxGoogleDriveCustomPropertyBytes <
        googleDriveRepoNamespaceProperty.utf8ByteSize + trimmed.utf8ByteSize ∧
          trimmed' = sha256Hex trimmed))

/-- Every property fits. -/
def FitsDrive (pairs : List (String × String)) : Prop :=
  ∀ pair ∈ pairs, pair.1.utf8ByteSize + pair.2.utf8ByteSize ≤ maxGoogleDriveCustomPropertyBytes

/-- The digits of an identifier are one byte each. -/
theorem LfsOid.utf8ByteSize_hex (oid : LfsOid) : oid.hex.utf8ByteSize = 64 := by
  rw [Text.utf8ByteSize_eq_length fun c hc => (isHexDigit_spec (isLowerHex_spec
    (oid.lower c hc)).1).1]
  exact oid.length_eq

/-- The digits of a 64-bit number are few. -/
theorem utf8ByteSize_toString_u64 (n : UInt64) : (toString n).utf8ByteSize ≤ 20 := by
  have hlist : (toString n).toList = Nat.toDigits 10 n.toNat := Nat.toList_repr
  have hdigit : ∀ c ∈ (toString n).toList, c.utf8Size = 1 := by
    intro c hc
    rw [hlist] at hc
    have hdigit : c.isDigit = true := Nat.isDigit_of_mem_toDigits (by decide) (by decide) hc
    have hhex : isHexDigit c = true := by simp [isHexDigit, isLowerHex, hdigit]
    exact (isHexDigit_spec hhex).1
  rw [Text.utf8ByteSize_eq_length hdigit, hlist]
  have hlt : n.toNat < 10 ^ 20 := lt_trans n.toNat_lt (by norm_num)
  exact (Nat.length_toDigits_le_iff (by decide) (by decide)).mpr hlt

/-- A property has one value. -/
theorem GoogleDriveObjectProperties.value_eq {properties : GoogleDriveObjectProperties}
    {property value value' : String} (h : (property, value) ∈ properties.pairs)
    (h' : (property, value') ∈ properties.pairs) : value = value' := by
  have hlookup := (lookup_propertyTable properties.nodup_pairs).mpr h
  rw [(lookup_propertyTable properties.nodup_pairs).mpr h'] at hlookup
  exact (Option.some.inj hlookup).symm

/-- A file is accepted only with all properties of the object. -/
theorem Accepted.pairs_subset {key' : GoogleDriveObjectKey} (h : Accepted sha256Hex key' file)
    (hwritten : file.appProperties = propertyTable (key.expectedAppProperties sha256Hex).pairs) :
    (key'.expectedAppProperties sha256Hex).pairs ⊆
      (key.expectedAppProperties sha256Hex).pairs := by
  obtain ⟨storage, status, stored, hverified⟩ := h
  rintro ⟨property, value⟩ hmem
  have hlookup := (describesObject_of_verified hverified).properties property value hmem
  rw [hwritten] at hlookup
  exact (lookup_propertyTable (GoogleDriveObjectProperties.nodup_pairs _)).mp hlookup

section Members

variable (properties : GoogleDriveObjectProperties)

theorem GoogleDriveObjectProperties.namespace_mem_pairs :
    (googleDriveRepoNamespaceProperty, properties.repoNamespace.value) ∈ properties.pairs := by
  simp [pairs]

theorem GoogleDriveObjectProperties.oid_mem_pairs :
    ("lfsCloudOid", properties.oid) ∈ properties.pairs := by
  simp [pairs]

theorem GoogleDriveObjectProperties.size_mem_pairs :
    ("lfsCloudSize", properties.size) ∈ properties.pairs := by
  simp [pairs]

/-- A digest is tagged as one. -/
theorem GoogleDriveObjectProperties.format_mem_pairs {format : String} :
    ("lfsCloudRepoNamespaceFormat", format) ∈ properties.pairs ↔
      properties.repoNamespace.format = some format := by
  have hnamespace : googleDriveRepoNamespaceProperty ≠ "lfsCloudRepoNamespaceFormat" := by
    decide
  unfold pairs
  cases hformat : properties.repoNamespace.format with
  | none => simp [hnamespace.symm]
  | some tag => simp [hnamespace.symm, eq_comm]

end Members

/-- The properties tell the object, and the value that stands for the namespace. -/
theorem eq_of_pairs_subset {key key' : GoogleDriveObjectKey}
    (h : (key'.expectedAppProperties sha256Hex).pairs ⊆
      (key.expectedAppProperties sha256Hex).pairs) :
    key'.object = key.object ∧
      (key'.expectedAppProperties sha256Hex).repoNamespace.value =
        (key.expectedAppProperties sha256Hex).repoNamespace.value := by
  have hoid : key'.object.oid.hex = key.object.oid.hex :=
    GoogleDriveObjectProperties.value_eq
      (h (GoogleDriveObjectProperties.oid_mem_pairs _))
      (GoogleDriveObjectProperties.oid_mem_pairs _)
  have hsize : toString key'.object.size = toString key.object.size :=
    GoogleDriveObjectProperties.value_eq
      (h (GoogleDriveObjectProperties.size_mem_pairs _))
      (GoogleDriveObjectProperties.size_mem_pairs _)
  have hvalue := GoogleDriveObjectProperties.value_eq
    (h (GoogleDriveObjectProperties.namespace_mem_pairs _))
    (GoogleDriveObjectProperties.namespace_mem_pairs _)
  refine ⟨?_, hvalue⟩
  obtain ⟨_, ⟨oid, size⟩⟩ := key
  obtain ⟨_, ⟨oid', size'⟩⟩ := key'
  obtain ⟨hex, _, _⟩ := oid
  obtain ⟨hex', _, _⟩ := oid'
  simp only at hoid hsize
  subst hoid
  rw [toString_u64_injective hsize]

/-- What the values and tags say about two namespaces. -/
theorem eq_or_digest_of_pairs_subset {key key' : GoogleDriveObjectKey}
    (h : (key'.expectedAppProperties sha256Hex).pairs ⊆
      (key.expectedAppProperties sha256Hex).pairs)
    (hcollision : sha256Hex key.repoNamespace = sha256Hex key'.repoNamespace →
      key.repoNamespace = key'.repoNamespace) :
    key'.repoNamespace = key.repoNamespace ∨ (maxGoogleDriveCustomPropertyBytes <
      googleDriveRepoNamespaceProperty.utf8ByteSize + key.repoNamespace.utf8ByteSize ∧
        key'.repoNamespace = sha256Hex key.repoNamespace) := by
  obtain ⟨_, hvalue⟩ := eq_of_pairs_subset h
  simp only [GoogleDriveObjectKey.expectedAppProperties,
    GoogleDriveRepositoryNamespaceProperty.new] at hvalue
  by_cases hlong : googleDriveRepoNamespaceProperty.utf8ByteSize +
      key.repoNamespace.utf8ByteSize ≤ maxGoogleDriveCustomPropertyBytes
  · by_cases hlong' : googleDriveRepoNamespaceProperty.utf8ByteSize +
        key'.repoNamespace.utf8ByteSize ≤ maxGoogleDriveCustomPropertyBytes
    · rw [if_pos hlong, if_pos hlong'] at hvalue
      exact .inl hvalue
    · -- The tag of the second is not among the properties of the first.
      have hformat' : (key'.expectedAppProperties sha256Hex).repoNamespace.format =
          some "sha256" := by
        simp only [GoogleDriveObjectKey.expectedAppProperties,
          GoogleDriveRepositoryNamespaceProperty.new, if_neg hlong']
        rfl
      have hformat := (GoogleDriveObjectProperties.format_mem_pairs _).mp
        (h ((GoogleDriveObjectProperties.format_mem_pairs _).mpr hformat'))
      simp only [GoogleDriveObjectKey.expectedAppProperties,
        GoogleDriveRepositoryNamespaceProperty.new, if_pos hlong] at hformat
      cases hformat
  · by_cases hlong' : googleDriveRepoNamespaceProperty.utf8ByteSize +
        key'.repoNamespace.utf8ByteSize ≤ maxGoogleDriveCustomPropertyBytes
    · rw [if_neg hlong, if_pos hlong'] at hvalue
      exact .inr ⟨not_le.mp hlong, hvalue⟩
    · rw [if_neg hlong, if_neg hlong'] at hvalue
      exact .inl (hcollision hvalue.symm).symm

/-- The address of an object is of its namespace after trimming. -/
theorem GoogleDriveObjectKey.new_eq_ok {repoNamespace : String} {object : LfsObject} :
    GoogleDriveObjectKey.new repoNamespace object = .ok key ↔
      validateRepoNamespace repoNamespace = .ok key.repoNamespace ∧ key.object = object := by
  unfold GoogleDriveObjectKey.new
  obtain ⟨trimmed, object'⟩ := key
  cases validateRepoNamespace repoNamespace with
  | error e => simp [Except.map]
  | ok value => simp [Except.map, eq_comm]

/-- An aliased namespace asks for no property that the other one does not write. -/
theorem pairs_subset_of_alias {key key' : GoogleDriveObjectKey} (hobject : key'.object = key.object)
    (hdigest : (sha256Hex key.repoNamespace).utf8ByteSize = 64)
    (h : key'.repoNamespace = key.repoNamespace ∨ (maxGoogleDriveCustomPropertyBytes <
      googleDriveRepoNamespaceProperty.utf8ByteSize + key.repoNamespace.utf8ByteSize ∧
        key'.repoNamespace = sha256Hex key.repoNamespace)) :
    (key'.expectedAppProperties sha256Hex).pairs ⊆
      (key.expectedAppProperties sha256Hex).pairs := by
  obtain ⟨trimmed, object⟩ := key
  obtain ⟨trimmed', object'⟩ := key'
  simp only at hobject h hdigest
  subst hobject
  rcases h with rfl | ⟨hlong, rfl⟩
  · exact List.Subset.refl _
  · have hshort : googleDriveRepoNamespaceProperty.utf8ByteSize +
        (sha256Hex trimmed).utf8ByteSize ≤ maxGoogleDriveCustomPropertyBytes := by
      rw [hdigest]
      decide
    have hraw : GoogleDriveRepositoryNamespaceProperty.new sha256Hex (sha256Hex trimmed) =
        .raw (sha256Hex trimmed) := if_pos hshort
    have htagged : GoogleDriveRepositoryNamespaceProperty.new sha256Hex trimmed =
        .sha256 (sha256Hex trimmed) := if_neg (not_le.mpr hlong)
    simp only [GoogleDriveObjectKey.expectedAppProperties, hraw, htagged]
    exact List.subset_append_left _ _

/-- A file as an upload leaves it. -/
def writtenFile (sha256Hex : String → String) (key : GoogleDriveObjectKey) :
    GoogleDriveObjectFile where
  id := some "file"
  name := some key.fileName
  size := some (toString key.object.size)
  trashed := false
  appProperties := propertyTable (key.expectedAppProperties sha256Hex).pairs

/-- It is accepted by every address that asks for no other property. -/
theorem accepted_writtenFile {key key' : GoogleDriveObjectKey} (hobject : key'.object = key.object)
    (h : (key'.expectedAppProperties sha256Hex).pairs ⊆
      (key.expectedAppProperties sha256Hex).pairs) :
    Accepted sha256Hex key' (writtenFile sha256Hex key) := by
  have hdescribes : DescribesObject sha256Hex ⟨"drive"⟩ key' (writtenFile sha256Hex key)
      ⟨"drive", key'.repoNamespace, key'.object, "file"⟩ := by
    refine ⟨rfl, ?_, rfl, ?_, ⟨_, rfl, ?_⟩, rfl, rfl, rfl⟩
    · have hname : key.fileName = key'.fileName := by
        unfold GoogleDriveObjectKey.fileName
        rw [hobject]
      exact congrArg some hname
    · intro property expected hmem
      exact (lookup_propertyTable (GoogleDriveObjectProperties.nodup_pairs _)).mpr (h hmem)
    · rw [hobject]
      exact parseU64_toString _
  have hid : Text.isBlank "file" = false := by decide
  exact ⟨_, 200, _, hdescribes.verified hid 200⟩

/-- The files written for an object are accepted as another one exactly when it is the same
object and the namespace is aliased. -/
theorem isolated_iff {repoNamespace repoNamespace' : String} {object object' : LfsObject}
    (hdigest : ∀ s, (sha256Hex s).utf8ByteSize = 64)
    (hcollision : ∀ trimmed trimmed', validateRepoNamespace repoNamespace = .ok trimmed →
      validateRepoNamespace repoNamespace' = .ok trimmed' →
        sha256Hex trimmed = sha256Hex trimmed' → trimmed = trimmed') :
    Isolated sha256Hex repoNamespace object repoNamespace' object' ↔
      ¬(object = object' ∧ Aliased sha256Hex repoNamespace repoNamespace') := by
  constructor
  · rintro h ⟨rfl, trimmed, trimmed', htrimmed, htrimmed', halias⟩
    have hkey : GoogleDriveObjectKey.new repoNamespace object = .ok ⟨trimmed, object⟩ :=
      GoogleDriveObjectKey.new_eq_ok.mpr ⟨htrimmed, rfl⟩
    have hkey' : GoogleDriveObjectKey.new repoNamespace' object = .ok ⟨trimmed', object⟩ :=
      GoogleDriveObjectKey.new_eq_ok.mpr ⟨htrimmed', rfl⟩
    exact h _ _ hkey hkey' (writtenFile sha256Hex ⟨trimmed, object⟩) rfl
      (accepted_writtenFile rfl (pairs_subset_of_alias rfl (hdigest _) halias))
  · rintro h key key' hkey hkey' file hwritten haccepted
    obtain ⟨htrimmed, hobject⟩ := GoogleDriveObjectKey.new_eq_ok.mp hkey
    obtain ⟨htrimmed', hobject'⟩ := GoogleDriveObjectKey.new_eq_ok.mp hkey'
    have hpairs := haccepted.pairs_subset hwritten
    refine h ⟨?_, key.repoNamespace, key'.repoNamespace, htrimmed, htrimmed', ?_⟩
    · rw [← hobject, ← hobject', (eq_of_pairs_subset hpairs).1]
    · exact eq_or_digest_of_pairs_subset hpairs (hcollision _ _ htrimmed htrimmed')

/-- The properties of an object fit. -/
theorem fitsDrive_pairs (hdigest : ∀ s, (sha256Hex s).utf8ByteSize = 64)
    (key : GoogleDriveObjectKey) :
    FitsDrive (key.expectedAppProperties sha256Hex).pairs := by
  have hoid := key.object.oid.utf8ByteSize_hex
  have hsize := utf8ByteSize_toString_u64 key.object.size
  have hversion : "lfsCloudVersion".utf8ByteSize + "1".utf8ByteSize ≤
      maxGoogleDriveCustomPropertyBytes := by
    decide
  have hoidName : "lfsCloudOid".utf8ByteSize + 64 ≤ maxGoogleDriveCustomPropertyBytes := by
    decide
  have hsizeName : "lfsCloudSize".utf8ByteSize + 20 ≤ maxGoogleDriveCustomPropertyBytes := by
    decide
  have hformat : "lfsCloudRepoNamespaceFormat".utf8ByteSize + "sha256".utf8ByteSize ≤
      maxGoogleDriveCustomPropertyBytes := by
    decide
  have hnamespace : googleDriveRepoNamespaceProperty.utf8ByteSize + 64 ≤
      maxGoogleDriveCustomPropertyBytes := by
    decide
  have hcommon : ∀ value : GoogleDriveRepositoryNamespaceProperty,
      googleDriveRepoNamespaceProperty.utf8ByteSize + value.value.utf8ByteSize ≤
        maxGoogleDriveCustomPropertyBytes → (∀ format ∈ value.format, format = "sha256") →
          FitsDrive (GoogleDriveObjectProperties.mk value key.object.oid.hex
            (toString key.object.size)).pairs := by
    intro value hvalue htag pair hpair
    unfold GoogleDriveObjectProperties.pairs at hpair
    simp only [List.cons_append, List.nil_append, List.mem_cons, Option.mem_toList,
      Option.map_eq_some_iff] at hpair
    rcases hpair with rfl | rfl | rfl | rfl | ⟨format, hformat', rfl⟩
    · exact hversion
    · exact hvalue
    · dsimp only
      omega
    · dsimp only
      omega
    · rw [htag format hformat']
      exact hformat
  by_cases hlong : googleDriveRepoNamespaceProperty.utf8ByteSize +
      key.repoNamespace.utf8ByteSize ≤ maxGoogleDriveCustomPropertyBytes
  · have hraw : GoogleDriveRepositoryNamespaceProperty.new sha256Hex key.repoNamespace =
        .raw key.repoNamespace := if_pos hlong
    unfold GoogleDriveObjectKey.expectedAppProperties
    rw [hraw]
    exact hcommon _ hlong fun format hformat => by cases hformat
  · have htagged : GoogleDriveRepositoryNamespaceProperty.new sha256Hex key.repoNamespace =
        .sha256 (sha256Hex key.repoNamespace) := if_neg hlong
    unfold GoogleDriveObjectKey.expectedAppProperties
    rw [htagged]
    refine hcommon _ ?_ ?_
    · have hdigest := hdigest key.repoNamespace
      simp only [GoogleDriveRepositoryNamespaceProperty.value]
      omega
    · intro format hformat
      exact (Option.some.inj hformat).symm

/-- The properties of a shard folder fit. -/
theorem fitsDrive_shardFolderPairs (key : GoogleDriveObjectKey) :
    FitsDrive key.shardFolderPairs := by
  have hkind : googleDriveShardKindProperty.utf8ByteSize + googleDriveShardKind.utf8ByteSize ≤
      maxGoogleDriveCustomPropertyBytes := by
    decide
  have hname : googleDriveShardPrefixProperty.utf8ByteSize + 2 ≤
      maxGoogleDriveCustomPropertyBytes := by
    decide
  have hfront : key.shardPrefix.utf8ByteSize ≤ 2 := by
    unfold GoogleDriveObjectKey.shardPrefix
    rw [Text.utf8ByteSize_ofList, Text.byteLength_eq_length]
    · exact List.length_take_le _ _
    · intro c hc
      exact (isHexDigit_spec (isLowerHex_spec
        (key.object.oid.lower c (List.mem_of_mem_take hc))).1).1
  intro pair hpair
  simp only [GoogleDriveObjectKey.shardFolderPairs, List.mem_cons, List.not_mem_nil,
    or_false] at hpair
  rcases hpair with rfl | rfl
  · exact hkind
  · dsimp only
    omega

/-- A file that was written for an object of a repository is accepted as another object of
another one exactly when the namespace is aliased, every property fits, and every search
selects exactly the literals that go into it. -/
theorem drive_namespace_isolation (sha256Hex : String → String)
    (hdigest : ∀ s, (sha256Hex s).utf8ByteSize = 64) (repoNamespace repoNamespace' : String)
    (object object' : LfsObject)
    (hcollision : ∀ trimmed trimmed', validateRepoNamespace repoNamespace = .ok trimmed →
      validateRepoNamespace repoNamespace' = .ok trimmed' →
        sha256Hex trimmed = sha256Hex trimmed' → trimmed = trimmed') :
    (Isolated sha256Hex repoNamespace object repoNamespace' object' ↔
      ¬(object = object' ∧ Aliased sha256Hex repoNamespace repoNamespace')) ∧
    (∀ key, GoogleDriveObjectKey.new repoNamespace object = .ok key →
      FitsDrive (key.expectedAppProperties sha256Hex).pairs ∧ FitsDrive key.shardFolderPairs ∧
      ∀ folder, read (driveObjectLookupQuery folder key (key.expectedAppProperties sha256Hex)) =
          some (.inParents folder :: .trashed false :: .name key.fileName ::
            (key.expectedAppProperties sha256Hex).pairs.map
              fun pair => .appProperty pair.1 pair.2) ∧
        read (driveShardFolderLookupQuery folder key) =
          some (.inParents folder :: .trashed false :: .name key.shardFolderName ::
            .mimeType googleDriveFolderMimeType ::
              key.shardFolderPairs.map fun pair => .appProperty pair.1 pair.2)) := by
  refine ⟨isolated_iff hdigest hcollision, fun key _ => ⟨fitsDrive_pairs hdigest key,
    fitsDrive_shardFolderPairs key, fun folder => ⟨?_, ?_⟩⟩⟩
  · exact read_driveObjectLookupQuery folder key _
  · exact read_driveShardFolderLookupQuery folder key

/-- A namespace that does not fit. -/
def longNamespace : String := String.ofList (List.replicate 104 'r')

/-- The digest that stands for it. -/
def longNamespaceDigest : String :=
  "59f26946d3482e77b7d656cb34c2766932ecb26ab6881f79cef6c36fcbde428b"

/-- The digests of the long namespace, of a short one, and of the digest of the first. -/
def sampleDigest (s : String) : String :=
  if s = longNamespace then longNamespaceDigest
  else if s = "repo" then "071ca2227754705837aa3ef9748ed59e9f8a015fd765c42f391a4cbc271c6d5e"
  else "5c9ac6973ed7a337cdf77b8d953728027b03bcf81611c54bf65214e426805658"

theorem utf8ByteSize_sampleDigest (s : String) : (sampleDigest s).utf8ByteSize = 64 := by
  unfold sampleDigest
  split
  · decide
  · split
    · decide
    · decide

/-- A namespace of visible characters is not changed. -/
theorem validateRepoNamespace_of_visible {value : String} (hne : value.toList ≠ [])
    (h : ∀ c ∈ value.toList, Text.isWhitespace c = false ∧ Text.isControl c = false) :
    validateRepoNamespace value = .ok value := by
  have hcontrol : value.toList.any Text.isControl ≠ true := by
    intro hany
    obtain ⟨c, hc, hcontrol⟩ := List.any_eq_true.mp hany
    rw [(h c hc).2] at hcontrol
    cases hcontrol
  unfold validateRepoNamespace
  rw [Text.trim_eq_self fun c hc => (h c hc).1]
  dsimp only
  rw [if_neg hne, if_neg hcontrol, String.ofList_toList]

theorem toList_longNamespace : longNamespace.toList = List.replicate 104 'r' :=
  String.toList_ofList

theorem validate_longNamespace : validateRepoNamespace longNamespace = .ok longNamespace := by
  apply validateRepoNamespace_of_visible
  · rw [toList_longNamespace]
    simp
  · intro c hc
    rw [toList_longNamespace] at hc
    obtain rfl := List.eq_of_mem_replicate hc
    decide

theorem validate_repo : validateRepoNamespace "repo" = .ok "repo" := by decide

/-- A namespace that looks like the digest of another one takes its files for its own, and
so does one with a blank in front. -/
theorem drive_namespace_alias :
    ¬Isolated sampleDigest longNamespace ⟨LfsOid.zero, 1⟩ longNamespaceDigest ⟨LfsOid.zero, 1⟩ ∧
      ¬Isolated sampleDigest "repo" ⟨LfsOid.zero, 1⟩ " repo" ⟨LfsOid.zero, 1⟩ := by
  have hdigest : validateRepoNamespace longNamespaceDigest = .ok longNamespaceDigest := by
    decide
  have hblank : validateRepoNamespace " repo" = .ok "repo" := by decide
  have hlong : maxGoogleDriveCustomPropertyBytes <
      googleDriveRepoNamespaceProperty.utf8ByteSize + longNamespace.utf8ByteSize := by
    have hlength : longNamespace.utf8ByteSize = 104 := by
      unfold longNamespace
      rw [Text.utf8ByteSize_ofList]
      decide
    rw [hlength]
    decide
  constructor
  · intro h
    refine (isolated_iff utf8ByteSize_sampleDigest ?_).mp h ⟨rfl, _, _, validate_longNamespace,
      hdigest, .inr ⟨hlong, (if_pos rfl).symm⟩⟩
    rintro trimmed trimmed' htrimmed htrimmed' hsame
    obtain rfl := Except.ok.inj (validate_longNamespace.symm.trans htrimmed)
    obtain rfl := Except.ok.inj (hdigest.symm.trans htrimmed')
    exact absurd hsame (by decide)
  · intro h
    refine (isolated_iff utf8ByteSize_sampleDigest ?_).mp h ⟨rfl, _, _, validate_repo, hblank,
      .inl rfl⟩
    rintro trimmed trimmed' htrimmed htrimmed' _
    exact Except.ok.inj ((htrimmed.symm.trans validate_repo).trans (hblank.symm.trans htrimmed'))

/-- Two namespaces that are kept apart. -/
theorem drive_namespace_isolation_sample :
    Isolated sampleDigest longNamespace ⟨LfsOid.zero, 1⟩ "repo" ⟨LfsOid.zero, 1⟩ := by
  have hne : "repo" ≠ longNamespace := by decide
  have hlong : sampleDigest longNamespace = longNamespaceDigest := if_pos rfl
  refine (drive_namespace_isolation sampleDigest utf8ByteSize_sampleDigest longNamespace "repo"
    ⟨LfsOid.zero, 1⟩ ⟨LfsOid.zero, 1⟩ ?_).1.mpr ?_
  · rintro trimmed trimmed' htrimmed htrimmed' hsame
    obtain rfl := Except.ok.inj (validate_longNamespace.symm.trans htrimmed)
    obtain rfl := Except.ok.inj (validate_repo.symm.trans htrimmed')
    rw [hlong, sampleDigest, if_neg hne, if_pos rfl] at hsame
    exact absurd hsame (by decide)
  · rintro ⟨_, trimmed, trimmed', htrimmed, htrimmed', halias⟩
    obtain rfl := Except.ok.inj (validate_longNamespace.symm.trans htrimmed)
    obtain rfl := Except.ok.inj (validate_repo.symm.trans htrimmed')
    rcases halias with hsame | ⟨_, hsame⟩
    · exact hne hsame
    · rw [hlong] at hsame
      exact absurd hsame (by decide)

end LfsCloud
