import LfsCloud.Lib.U64
import LfsCloud.Lib.Utf8
import LfsCloud.Migration.History

/-!
# Reading objects from one Git process

A process of Git answers requests for objects, one after the other. The reader finds the end of an
answer by its header, so that what is read for a request is the answer to it, whatever bytes the
objects have.
-/

namespace LfsCloud

/-! ## The reader -/

/-- `MigrationError`, as far as the reader returns it. -/
inductive BatchReaderError
  | externalCommandOutput (command message : String)
  | gitObjectUnavailable (objectId : String)
  | io (context : String)
  deriving DecidableEq

/-- What is read: a result, and the output that is left. -/
abbrev BatchRead (α : Type) := Except BatchReaderError α × List UInt8

/-- The next read, where the one before succeeded. -/
def BatchRead.andThen {α β : Type} (read : BatchRead α) (next : α → List UInt8 → BatchRead β) :
    BatchRead β :=
  match read with
  | (.error error, output) => (.error error, output)
  | (.ok a, output) => next a output

/-- The part of `read_header` behind the line. -/
def parseBatchHeader (requested command header : String) :
    Except BatchReaderError GitBatchObjectInfo :=
  match header.toList.splitOn ' ' with
  | [objectId, objectType, size] =>
    if String.ofList objectId ≠ requested ∨ isGitObjectId (String.ofList objectId) = false then
      .error (.externalCommandOutput command "git returned a mismatched batch object ID")
    else match parseU64 size with
    | none => .error (.externalCommandOutput command "git returned an invalid batch object size")
    | some size => .ok ⟨String.ofList objectType, size⟩
  | _ => .error (.externalCommandOutput command "git returned malformed batch object metadata")

/-- `read_header`. -/
def readHeader (requested command : String) (output : List UInt8) : BatchRead GitBatchObjectInfo :=
  match Records.cut 10 output with
  | none =>
    (.error (.externalCommandOutput command "git returned a truncated batch object header"), [])
  | some (header, rest) =>
    (if Utf8.bytes " missing" <:+ header then .error (.gitObjectUnavailable requested)
    else match Utf8.text header with
    | none =>
      .error (.externalCommandOutput command "git returned non-UTF-8 batch object metadata")
    | some header => parseBatchHeader requested command header, rest)

/-- The part of `contents` behind the header. -/
def readContents (expectedType : String) (maxSize : ℕ) (command : String)
    (info : GitBatchObjectInfo) (output : List UInt8) : BatchRead (List UInt8) :=
  if info.objectType ≠ expectedType then
    (.error (.externalCommandOutput command "git returned an unexpected object type"), output)
  else if maxSize < info.size then
    (.error (.externalCommandOutput command "git returned too much object data"), output)
  else if output.length < info.size then
    (.error (.io ("failed to read " ++ command ++ " object data")), [])
  else match output.drop info.size with
  | [] => (.error (.io ("failed to read " ++ command ++ " object delimiter")), [])
  | delimiter :: rest =>
    if delimiter ≠ 10 then
      (.error (.externalCommandOutput command "git returned malformed batch object data"), rest)
    else (.ok (output.take info.size), rest)

section Reader

variable (respond : String → List UInt8)

/-- `write_request`, to a process that writes its response to a line. -/
def writeRequest (operation objectId command : String) (output : List UInt8) : BatchRead Unit :=
  if isGitObjectId objectId = false then
    (.error (.externalCommandOutput command "git object request contained an invalid ID"), output)
  else (.ok (), output ++ respond (operation ++ " " ++ objectId))

/-- `GitBatchObjectReader::info`. -/
def batchInfo (objectId command : String) (output : List UInt8) : BatchRead GitBatchObjectInfo :=
  (writeRequest respond "info" objectId command output).andThen fun _ =>
    readHeader objectId command

/-- `GitBatchObjectReader::contents`. -/
def batchContents (objectId expectedType : String) (maxSize : ℕ) (command : String)
    (output : List UInt8) : BatchRead (List UInt8) :=
  (writeRequest respond "contents" objectId command output).andThen fun _ output =>
    (readHeader objectId command output).andThen (readContents expectedType maxSize command)

/-- A call of the reader. -/
inductive BatchRequest
  | info (objectId command : String)
  | contents (objectId expectedType : String) (maxSize : ℕ) (command : String)

/-- What a call returns. -/
inductive BatchAnswer
  | info (info : GitBatchObjectInfo)
  | contents (bytes : List UInt8)
  deriving DecidableEq

/-- What is done for a call. -/
def BatchRequest.read : BatchRequest → List UInt8 → BatchRead BatchAnswer
  | .info objectId command, output =>
    (batchInfo respond objectId command output).andThen fun info output =>
      (.ok (.info info), output)
  | .contents objectId expectedType maxSize command, output =>
    (batchContents respond objectId expectedType maxSize command output).andThen
      fun bytes output => (.ok (.contents bytes), output)

/-- Calls in a row, up to the first that fails. -/
def readRequests : List BatchRequest → List UInt8 → BatchRead (List BatchAnswer)
  | [], output => (.ok [], output)
  | request :: rest, output =>
    (request.read respond output).andThen fun answer output =>
      (readRequests rest output).andThen fun answers output => (.ok (answer :: answers), output)

end Reader

/-! ## The process -/

/-- The types of objects. -/
inductive GitObjectType
  | blob
  | tree
  | commit
  | tag
  deriving DecidableEq

/-- The name of a type. -/
def GitObjectType.name : GitObjectType → String
  | .blob => "blob"
  | .tree => "tree"
  | .commit => "commit"
  | .tag => "tag"

/-- An object of a repository. -/
structure StoredGitObject where
  objectType : GitObjectType
  contents : List UInt8
  fits : contents.length < u64Size

/-- The line in front of an object. -/
def objectHeader (objectId : String) (object : StoredGitObject) : List UInt8 :=
  Utf8.bytes (objectId ++ " " ++ object.objectType.name ++ " " ++
    toString object.contents.length) ++ [10]

/-- The line for an object that is not there. -/
def missingHeader (objectId : String) : List UInt8 := Utf8.bytes (objectId ++ " missing") ++ [10]

/-- What is documented of `git cat-file --batch-command`, for the objects of a repository. -/
structure ServesObjects (respond : String → List UInt8) (store : String → Option StoredGitObject) :
    Prop where
  info : ∀ objectId, isGitObjectId objectId = true → respond ("info" ++ " " ++ objectId) =
    (store objectId).elim (missingHeader objectId) (objectHeader objectId)
  contents : ∀ objectId, isGitObjectId objectId = true →
    respond ("contents" ++ " " ++ objectId) = (store objectId).elim (missingHeader objectId)
      fun object => objectHeader objectId object ++ (object.contents ++ [10])

/-- What a call returns by the objects of the repository alone. -/
def storedAnswer (store : String → Option StoredGitObject) :
    BatchRequest → Except BatchReaderError BatchAnswer
  | .info objectId command =>
    if isGitObjectId objectId = false then
      .error (.externalCommandOutput command "git object request contained an invalid ID")
    else match store objectId with
    | none => .error (.gitObjectUnavailable objectId)
    | some object => .ok (.info ⟨object.objectType.name, object.contents.length⟩)
  | .contents objectId expectedType maxSize command =>
    if isGitObjectId objectId = false then
      .error (.externalCommandOutput command "git object request contained an invalid ID")
    else match store objectId with
    | none => .error (.gitObjectUnavailable objectId)
    | some object =>
      if object.objectType.name ≠ expectedType then
        .error (.externalCommandOutput command "git returned an unexpected object type")
      else if maxSize < object.contents.length then
        .error (.externalCommandOutput command "git returned too much object data")
      else .ok (.contents object.contents)

/-! ## Headers -/

variable {objectId command : String} {output rest : List UInt8} {object : StoredGitObject}
  {respond : String → List UInt8} {store : String → Option StoredGitObject}

/-- A character of an identifier. -/
theorem isHexDigit_of_isGitObjectId (h : isGitObjectId objectId = true) :
    ∀ c ∈ objectId.toList, isHexDigit c = true :=
  List.all_eq_true.mp (Bool.and_eq_true _ _ ▸ h).2

/-- The number of bytes of an object is written in digits. -/
theorem isDigit_toString (n : ℕ) : ∀ c ∈ (toString n).toList, c.isDigit = true := by
  intro c hc
  have hlist : (toString n).toList = Nat.toDigits 10 n := Nat.toList_repr
  rw [hlist] at hc
  exact Nat.isDigit_of_mem_toDigits (by decide) (by decide) hc

theorem parseU64_toString_of_lt {n : ℕ} (h : n < u64Size) :
    parseU64 (toString n).toList = some n := by
  have hword : (UInt64.ofNat n).toNat = n := UInt64.toNat_ofNat_of_lt' h
  have htext : toString (UInt64.ofNat n) = toString n := by
    change toString (UInt64.ofNat n).toNat = toString n
    rw [hword]
  rw [← htext, parseU64_toString, hword]

/-- What follows a newline is left. -/
theorem cut_line {line : String} (h : '\n' ∉ line.toList) (rest : List UInt8) :
    Records.cut 10 (Utf8.bytes line ++ 10 :: rest) = some (Utf8.bytes line, rest) := by
  refine Records.cut_eq_some.mpr ⟨rfl, fun hmem => ?_⟩
  obtain ⟨c, hc, hten⟩ := Utf8.exists_of_mem_bytes (by decide) hmem
  have hnewline : c = '\n' := by
    rw [← Char.ofNat_toNat c, hten]
    rfl
  exact h (hnewline ▸ hc)

/-- The line in front of an object, as characters. -/
theorem toList_headerLine (objectId : String) (object : StoredGitObject) :
    (objectId ++ " " ++ object.objectType.name ++ " " ++
        toString object.contents.length).toList =
      objectId.toList ++ ' ' :: (object.objectType.name.toList ++
        ' ' :: (toString object.contents.length).toList) := by
  have hspace : " ".toList = [' '] := rfl
  simp only [String.toList_append, hspace, List.append_assoc,
    List.cons_append, List.nil_append]

/-- The header of an object is read. -/
theorem readHeader_objectHeader (hid : isGitObjectId objectId = true) :
    readHeader objectId command (objectHeader objectId object ++ rest) =
      (.ok ⟨object.objectType.name, object.contents.length⟩, rest) := by
  have hhex := isHexDigit_of_isGitObjectId hid
  have hdigit := isDigit_toString object.contents.length
  have hname : ∀ c ∈ object.objectType.name.toList, c ≠ ' ' ∧ c ≠ '\n' := by
    cases object.objectType
    all_goals exact Text.forall_of_all (by decide)
  set line := objectId ++ " " ++ object.objectType.name ++ " " ++
    toString object.contents.length with hline
  have hlist := toList_headerLine objectId object
  rw [← hline] at hlist
  have hnewline : '\n' ∉ line.toList := by
    intro hmem
    rw [hlist] at hmem
    rcases List.mem_append.mp hmem with hmem | hmem
    · exact absurd (hhex _ hmem) (by decide)
    rcases List.mem_cons.mp hmem with heq | hmem
    · exact absurd heq (by decide)
    rcases List.mem_append.mp hmem with hmem | hmem
    · exact (hname _ hmem).2 rfl
    rcases List.mem_cons.mp hmem with heq | hmem
    · exact absurd heq (by decide)
    · exact absurd (hdigit _ hmem) (by decide)
  have hfound : ¬Utf8.bytes " missing" <:+ Utf8.bytes line := by
    rintro ⟨front, hfront⟩
    have hdigits : Utf8.bytes (toString object.contents.length) ≠ [] := by
      intro hnil
      have htext := Utf8.text_bytes (toString object.contents.length)
      rw [hnil] at htext
      have hempty := Option.some.inj (htext.symm.trans (Utf8.text_bytes ""))
      have hne : (toString object.contents.length).toList ≠ [] := by
        have hdigits : (toString object.contents.length).toList =
            Nat.toDigits 10 object.contents.length := Nat.toList_repr
        rw [hdigits]
        exact Nat.toDigits_ne_nil
      exact hne (by rw [hempty]; rfl)
    have hlast := congrArg List.getLast? hfront
    rw [hline, Utf8.bytes_append _ (toString object.contents.length),
      List.getLast?_append_of_ne_nil _ hdigits,
      List.getLast?_append_of_ne_nil _ (by decide)] at hlast
    have hg : (Utf8.bytes " missing").getLast? = some 103 := by decide
    rw [hg] at hlast
    obtain ⟨c, hc, hcode⟩ := Utf8.exists_of_mem_bytes (by decide) (List.mem_of_getLast? hlast.symm)
    have hletter : c = 'g' := by
      rw [← Char.ofNat_toNat c, hcode]
      rfl
    exact absurd (hletter ▸ hdigit c hc) (by decide)
  have hsplit : line.toList.splitOn ' ' = [objectId.toList, object.objectType.name.toList,
      (toString object.contents.length).toList] := by
    have hfirst : ' ' ∉ objectId.toList :=
      fun hmem => absurd (hhex _ hmem) (by decide)
    have hsecond : ' ' ∉ object.objectType.name.toList := fun hmem => (hname _ hmem).1 rfl
    have hthird : ' ' ∉ (toString object.contents.length).toList :=
      fun hmem => absurd (hdigit _ hmem) (by decide)
    rw [hlist, List.splitOn_append_cons_self_of_not_mem hfirst,
      List.splitOn_append_cons_self_of_not_mem hsecond, List.splitOn_eq_singleton hthird]
  have hassoc : objectHeader objectId object ++ rest = Utf8.bytes line ++ 10 :: rest := by
    rw [objectHeader, List.append_assoc]
    rfl
  unfold readHeader
  rw [hassoc, cut_line hnewline]
  dsimp only
  rw [if_neg hfound, Utf8.text_bytes]
  dsimp only
  unfold parseBatchHeader
  rw [hsplit]
  dsimp only
  rw [String.ofList_toList, String.ofList_toList, if_neg, parseU64_toString_of_lt object.fits]
  rw [hid]
  exact fun h => h.elim (fun hne => hne rfl) fun hfalse => Bool.noConfusion hfalse

/-- The line for an object that is not there is read. -/
theorem readHeader_missingHeader (hid : isGitObjectId objectId = true) :
    readHeader objectId command (missingHeader objectId ++ rest) =
      (.error (.gitObjectUnavailable objectId), rest) := by
  have hnewline : '\n' ∉ (objectId ++ " missing").toList := by
    intro hmem
    rw [String.toList_append] at hmem
    rcases List.mem_append.mp hmem with hmem | hmem
    · exact absurd (isHexDigit_of_isGitObjectId hid _ hmem) (by decide)
    · exact absurd hmem (by decide)
  have hassoc : missingHeader objectId ++ rest =
      Utf8.bytes (objectId ++ " missing") ++ 10 :: rest := by
    rw [missingHeader, List.append_assoc]
    rfl
  unfold readHeader
  rw [hassoc, cut_line hnewline]
  dsimp only
  rw [if_pos]
  rw [Utf8.bytes_append]
  exact List.suffix_append _ _

/-! ## Calls -/

/-- The contents of an object are read behind its header. -/
theorem readContents_served {expectedType : String} {maxSize : ℕ} :
    readContents expectedType maxSize command
        ⟨object.objectType.name, object.contents.length⟩ (object.contents ++ [10]) =
      if object.objectType.name ≠ expectedType then
        (.error (.externalCommandOutput command "git returned an unexpected object type"),
          object.contents ++ [10])
      else if maxSize < object.contents.length then
        (.error (.externalCommandOutput command "git returned too much object data"),
          object.contents ++ [10])
      else (.ok object.contents, []) := by
  have hlength : ¬(object.contents ++ [10]).length < object.contents.length := by
    rw [List.length_append]
    omega
  unfold readContents
  dsimp only
  rw [if_neg hlength, List.drop_left, List.take_left]
  rfl

theorem writeRequest_valid {operation : String} (hid : isGitObjectId objectId = true) :
    writeRequest respond operation objectId command output =
      (.ok (), output ++ respond (operation ++ " " ++ objectId)) := by
  unfold writeRequest
  rw [if_neg]
  rw [hid]
  exact Bool.noConfusion

/-- What is read first, where nothing was left: the line for an object that is not there, or the
header of an object. -/
theorem readHeader_served (hid : isGitObjectId objectId = true)
    (behind : StoredGitObject → List UInt8) :
    readHeader objectId command ((store objectId).elim (missingHeader objectId) fun object =>
        objectHeader objectId object ++ behind object) =
      (store objectId).elim (.error (.gitObjectUnavailable objectId), []) fun object =>
        (.ok ⟨object.objectType.name, object.contents.length⟩, behind object) := by
  cases store objectId with
  | none =>
    dsimp only [Option.elim_none]
    rw [← List.append_nil (missingHeader objectId)]
    exact readHeader_missingHeader hid
  | some object => exact readHeader_objectHeader hid

/-- A call behind which nothing is left returns what the objects say, and if it succeeds, nothing is
left again. -/
theorem read_request (hserves : ServesObjects respond store) (request : BatchRequest) :
    ∃ left, request.read respond [] = (storedAnswer store request, left) ∧
      ∀ answer, storedAnswer store request = .ok answer → left = [] := by
  cases request with
  | info objectId command =>
    by_cases hid : isGitObjectId objectId = false
    · refine ⟨[], ?_, fun _ _ => rfl⟩
      rw [BatchRequest.read, batchInfo, writeRequest, storedAnswer, if_pos hid, if_pos hid]
      rfl
    · have hvalid := eq_true_of_ne_false hid
      have hbare : respond ("info" ++ " " ++ objectId) = (store objectId).elim
          (missingHeader objectId) fun object => objectHeader objectId object ++ [] := by
        rw [hserves.info objectId hvalid]
        simp only [List.append_nil]
      refine ⟨[], ?_, fun _ _ => rfl⟩
      rw [BatchRequest.read, batchInfo, writeRequest_valid hvalid, storedAnswer, if_neg hid,
        List.nil_append, hbare]
      unfold BatchRead.andThen
      dsimp only
      rw [readHeader_served hvalid fun _ => []]
      cases store objectId with
      | none => rfl
      | some object => rfl
  | contents objectId expectedType maxSize command =>
    by_cases hid : isGitObjectId objectId = false
    · refine ⟨[], ?_, fun _ _ => rfl⟩
      rw [BatchRequest.read, batchContents, writeRequest, storedAnswer, if_pos hid, if_pos hid]
      rfl
    · have hvalid := eq_true_of_ne_false hid
      rw [BatchRequest.read, batchContents, writeRequest_valid hvalid, storedAnswer, if_neg hid,
        List.nil_append, hserves.contents objectId hvalid]
      unfold BatchRead.andThen
      dsimp only
      rw [readHeader_served hvalid fun object => object.contents ++ [10]]
      cases store objectId with
      | none => exact ⟨[], rfl, fun _ _ => rfl⟩
      | some object =>
        dsimp only [Option.elim_some]
        rw [readContents_served]
        split_ifs
        · exact ⟨_, rfl, nofun⟩
        · exact ⟨_, rfl, nofun⟩
        · exact ⟨[], rfl, fun _ _ => rfl⟩

/-- Calls in a row return what the objects say, up to the first that fails. -/
theorem read_requests (hserves : ServesObjects respond store) (requests : List BatchRequest) :
    ∃ left, readRequests respond requests [] = (requests.mapM (storedAnswer store), left) ∧
      ∀ answers, requests.mapM (storedAnswer store) = .ok answers → left = [] := by
  induction requests with
  | nil => exact ⟨[], rfl, fun _ _ => rfl⟩
  | cons request requests ih =>
    obtain ⟨left, hread, hleft⟩ := read_request hserves request
    rw [readRequests, List.mapM_cons, hread]
    cases hanswer : storedAnswer store request with
    | error error => exact ⟨left, rfl, nofun⟩
    | ok answer =>
      obtain rfl := hleft answer hanswer
      obtain ⟨left', hreads, hleft'⟩ := ih
      rw [BatchRead.andThen, hreads]
      cases hanswers : requests.mapM (storedAnswer store) with
      | error error => exact ⟨left', rfl, nofun⟩
      | ok answers => exact ⟨left', rfl, fun _ _ => hleft' answers hanswers⟩

/-! ## Any process -/

/-- A header that is accepted is a line of the object. -/
theorem readHeader_eq_ok {info : GitBatchObjectInfo}
    (h : readHeader objectId command output = (.ok info, rest)) :
    isGitObjectId objectId = true ∧ ∃ size : String, parseU64 size.toList = some info.size ∧
      output = Utf8.bytes (objectId ++ " " ++ info.objectType ++ " " ++ size) ++ 10 :: rest := by
  unfold readHeader at h
  split at h
  · cases (Prod.mk.inj h).1
  next line left hcut =>
    obtain ⟨hparse, rfl⟩ := Prod.mk.inj h
    split_ifs at hparse with hmissing
    split at hparse
    · cases hparse
    next header htext =>
      unfold parseBatchHeader at hparse
      split at hparse
      next first second third hfields =>
        split_ifs at hparse with hid
        obtain ⟨hsame, hvalid⟩ := not_or.mp hid
        rw [not_not.mp hsame, Bool.not_eq_false] at hvalid
        split at hparse
        · cases hparse
        next size hsize =>
          obtain rfl := Except.ok.inj hparse
          refine ⟨hvalid, String.ofList third, ?_, ?_⟩
          · rw [String.toList_ofList]
            exact hsize
          · have hline : header = String.ofList first ++ " " ++ String.ofList second ++ " " ++
                String.ofList third := by
              have hjoin : [' '].intercalate (header.toList.splitOn ' ') = header.toList :=
                List.intercalate_splitOn ' '
              rw [hfields] at hjoin
              apply String.toList_inj.mp
              rw [← hjoin]
              have hspace : " ".toList = [' '] := rfl
              simp [List.intercalate, hspace]
            obtain ⟨rfl, _⟩ := Records.cut_eq_some.mp hcut
            rw [← not_not.mp hsame, ← hline, Utf8.bytes_of_text htext]
      · cases hparse

/-- Contents that are returned stand in the output for the object, behind a header with their
number. -/
theorem batchContents_eq_ok {expectedType : String} {maxSize : ℕ} {bytes : List UInt8}
    (h : batchContents respond objectId expectedType maxSize command output =
      (.ok bytes, rest)) :
    isGitObjectId objectId = true ∧ bytes.length ≤ maxSize ∧
      ∃ size : String, parseU64 size.toList = some bytes.length ∧
        output ++ respond ("contents" ++ " " ++ objectId) =
          Utf8.bytes (objectId ++ " " ++ expectedType ++ " " ++ size) ++ 10 ::
            (bytes ++ 10 :: rest) := by
  unfold batchContents writeRequest at h
  split_ifs at h with hid
  · cases (Prod.mk.inj h).1
  · unfold BatchRead.andThen at h
    dsimp only at h
    split at h
    · cases (Prod.mk.inj h).1
    next info left hheader =>
      obtain ⟨hvalid, size, hsize, houtput⟩ := readHeader_eq_ok hheader
      unfold readContents at h
      split_ifs at h with htype hmax hshort
      · cases (Prod.mk.inj h).1
      · cases (Prod.mk.inj h).1
      · cases (Prod.mk.inj h).1
      · split at h
        · cases (Prod.mk.inj h).1
        next delimiter behind hdrop =>
          split_ifs at h with hdelimiter
          · cases (Prod.mk.inj h).1
          · obtain ⟨hbytes, rfl⟩ := Prod.mk.inj h
            obtain rfl := Except.ok.inj hbytes
            have hlength : (left.take info.size).length = info.size := by
              rw [List.length_take]
              omega
            refine ⟨hvalid, by omega, size, ?_, ?_⟩
            · rw [hlength]
              exact hsize
            · have hleft : left = left.take info.size ++ 10 :: behind := by
                rw [← not_not.mp hdelimiter, ← hdrop, List.take_append_drop]
              rw [houtput, ← not_not.mp htype, ← hleft]

/-! ## The whole -/

/-- For every process that serves the objects of a repository, whatever bytes they have, and every
calls in a row: the calls return what the objects say, up to the first that fails, and where all
succeed, nothing is left of the output. And for every process and every output that is left before:
contents that are returned stand in the output for their object, with their type and their length in
front of them. -/
theorem git_objects_in_sync (hserves : ServesObjects respond store)
    (requests : List BatchRequest) :
    (readRequests respond requests []).1 = requests.mapM (storedAnswer store) ∧
      (∀ answers, (readRequests respond requests []).1 = .ok answers →
        (readRequests respond requests []).2 = []) ∧
      ∀ respond' objectId expectedType maxSize command output bytes rest,
        batchContents respond' objectId expectedType maxSize command output = (.ok bytes, rest) →
        isGitObjectId objectId = true ∧ bytes.length ≤ maxSize ∧
          ∃ size : String, parseU64 size.toList = some bytes.length ∧
            output ++ respond' ("contents" ++ " " ++ objectId) =
              Utf8.bytes (objectId ++ " " ++ expectedType ++ " " ++ size) ++ 10 ::
                (bytes ++ 10 :: rest) := by
  obtain ⟨left, hreads, hleft⟩ := read_requests hserves requests
  rw [hreads]
  exact ⟨rfl, hleft, fun _ _ _ _ _ _ _ _ h => batchContents_eq_ok h⟩

/-- A process that serves the objects of a repository. -/
def serveObjects (store : String → Option StoredGitObject) (line : String) : List UInt8 :=
  match Text.splitOnce ' ' line.toList with
  | none => []
  | some (operation, objectId) =>
    (store (String.ofList objectId)).elim (missingHeader (String.ofList objectId)) fun object =>
      if operation = "info".toList then objectHeader (String.ofList objectId) object
      else objectHeader (String.ofList objectId) object ++ (object.contents ++ [10])

theorem servesObjects (store : String → Option StoredGitObject) :
    ServesObjects (serveObjects store) store := by
  have hsplit : ∀ operation objectId : String, ' ' ∉ operation.toList →
      Text.splitOnce ' ' (operation ++ " " ++ objectId).toList =
        some (operation.toList, objectId.toList) := by
    intro operation objectId h
    have htext : (operation ++ " " ++ objectId).toList =
        operation.toList ++ ' ' :: objectId.toList := by
      have hspace : " ".toList = [' '] := rfl
      simp only [String.toList_append, hspace, List.append_assoc, List.singleton_append]
    rw [htext, Text.splitOnce_append h]
  constructor
  · intro objectId _
    unfold serveObjects
    rw [hsplit "info" objectId (by decide)]
    dsimp only
    rw [String.ofList_toList]
    rfl
  · intro objectId _
    unfold serveObjects
    rw [hsplit "contents" objectId (by decide)]
    dsimp only
    rw [String.ofList_toList]
    rfl

/-- A repository with one object: its contents look like an answer for another. -/
def deceptiveStore (objectId : String) : Option StoredGitObject :=
  if objectId = "0000000000000000000000000000000000000000" then
    some ⟨.blob, Utf8.bytes "x missing\n", by decide⟩
  else none

/-- The object is read twice, and then its size. -/
theorem git_objects_in_sync_deceptive :
    (readRequests (serveObjects deceptiveStore)
      [.contents "0000000000000000000000000000000000000000" "blob" 1024 "first",
        .contents "0000000000000000000000000000000000000000" "blob" 1024 "second",
        .info "0000000000000000000000000000000000000000" "third"] []).1 =
      .ok [.contents (Utf8.bytes "x missing\n"), .contents (Utf8.bytes "x missing\n"),
        .info ⟨"blob", 10⟩] := by
  rw [(git_objects_in_sync (servesObjects deceptiveStore) _).1]
  rfl

end LfsCloud
