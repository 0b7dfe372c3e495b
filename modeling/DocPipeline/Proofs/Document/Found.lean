import DocPipeline.Proofs.Document.Frame
import DocPipeline.Proofs.Files.Entry

/-! Documents that are found. A document is a file that was there, or the whole body of a successful
answer, in a file of the work directory or of a temporary one. Under its path it can be read byte
for byte as long as the run goes on.
-/

namespace DocPipeline

variable {tree after : Tree} {traffic later : Web.Traffic} {peer : Web.Peer} {seconds : Nat}
  {url path : String} {body : Bytes}

-----------------------------------------------------------------------------------------
-- Downloads
-----------------------------------------------------------------------------------------

namespace Download

/-- The peer gives this body for an address: the last answer, after all redirects, is a success, and
its body arrives as a whole.
-/
def Gives (peer : Web.Peer) (url : String) (traffic : Web.Traffic) (body : Bytes) : Prop :=
  ∃ address answer,
    Url.parse url = .ok address
    ∧ (Web.send peer .get address .nothing traffic).1 = .ok answer
    ∧ Web.Code.isSuccess answer.code = true
    ∧ answer.arrival = .whole
    ∧ answer.body = body

theorem wholeBody_eq_ok_iff {answer : Web.Answer}
    : answer.wholeBody = .ok body ↔ answer.arrival = .whole ∧ answer.body = body := by
  unfold Web.Answer.wholeBody
  cases answer.arrival <;> simp

/-- A body is fetched exactly when the peer gives it. -/
theorem fetch_eq_ok_iff : (fetch peer seconds url traffic).1 = .ok body
    ↔ Gives peer url traffic body := by
  unfold fetch
  cases parsed : Url.parse url with
  | error fault => simp [Gives, parsed]
  | ok address =>
      have gives : Gives peer url traffic body ↔ ∃ answer,
          (Web.send peer .get address .nothing traffic).1 = .ok answer
          ∧ Web.Code.isSuccess answer.code = true ∧ answer.wholeBody = .ok body := by
        simp [Gives, parsed, wholeBody_eq_ok_iff]
      rw [gives]
      dsimp only
      rcases Web.send peer .get address .nothing traffic with ⟨result, later⟩
      cases result with
      | error fault => simp
      | ok answer =>
          by_cases success : Web.Code.isSuccess answer.code = true
          · cases arrived : answer.wholeBody <;> simp [success, arrived]
          · simp [success]

/-- Storing a body leaves it at the path, since its file is the last thing that is written. -/
theorem read_of_store (sound : tree.Sound) (stored : store path body tree = (.ok (), after))
    : after.read path = .ok body := by
  have parents : tree.Becomes _ (tree.OnWay path) (fun _ => False) := parents_become sound path
  unfold store at stored
  rcases created : tree.createDirectories (Path.parent path) with ⟨result, between⟩
  rw [created] at stored parents
  cases result with
  | error fault => cases stored
  | ok _ =>
      dsimp only at stored parents
      cases written : between.write path body with
      | error fault =>
          rw [written] at stored
          cases stored
      | ok last =>
          rw [written] at stored
          obtain ⟨_, rfl⟩ := Prod.mk.inj stored
          exact Tree.read_of_write parents.sound written

/-- A file that is fetched holds the body that the peer gave. -/
theorem toFile_ok {bytes : Nat} (sound : tree.Sound)
    (fetched : toFile peer seconds url path tree traffic = (.ok bytes, after, later))
    : ∃ body, Gives peer url traffic body ∧ bytes = body.length
        ∧ after.read path = .ok body := by
  unfold toFile at fetched
  rcases given : fetch peer seconds url traffic with ⟨result, between⟩
  rw [given] at fetched
  cases result with
  | error failure => cases fetched
  | ok body =>
      refine ⟨body, fetch_eq_ok_iff.mp (congrArg Prod.fst given), ?_⟩
      rcases stored : store path body tree with ⟨result, last⟩
      dsimp only at fetched
      rw [stored] at fetched
      cases result with
      | error failure => cases fetched
      | ok _ =>
          cases fetched
          exact ⟨rfl, read_of_store sound stored⟩

/-- Nothing is changed unless the peer gives a body. -/
theorem toFile_tree (seconds : Nat) (path : String) (tree : Tree)
    (ungiven : ¬ ∃ body, Gives peer url traffic body)
    : (toFile peer seconds url path tree traffic).2.1 = tree := by
  unfold toFile
  rcases given : fetch peer seconds url traffic with ⟨result, between⟩
  cases result with
  | error failure => rfl
  | ok body => exact absurd ⟨body, fetch_eq_ok_iff.mp (congrArg Prod.fst given)⟩ ungiven

end Download

-----------------------------------------------------------------------------------------
-- Documents
-----------------------------------------------------------------------------------------

namespace Document

/-- How the document of an input was found, and with which bytes. It is a file that was there, or a
body that the peer gave for the address that the input is.
-/
inductive Found (peer : Web.Peer) (workDir : Option String) (input : String) (tree : Tree)
    (traffic : Web.Traffic) : Document → Bytes → Prop
  | present {content : Bytes} (path : Url.isWebAddress input = false)
    (reads : tree.read input = .ok content) : Found peer workDir input tree traffic
      (.present input) content
  | kept {directory : String} {body : Bytes} (address : Url.isWebAddress input = true)
    (given : Download.Gives peer input traffic body) (keeps : workDir = some directory)
    : Found peer workDir input tree traffic
        (.kept (Path.join directory (Url.fileName input)) body.length) body
  | temporary {body : Bytes} (address : Url.isWebAddress input = true)
    (given : Download.Gives peer input traffic body) (keeps : workDir = none)
    : Found peer workDir input tree traffic
        (.temporary (temporaryPath (tree.freshLocation []) (Url.fileName input)) body.length
          (tree.freshLocation [])) body

variable {workDir : Option String} {input : String} {document : Document}

/-- A document is found with the bytes that are read under its path, by cases on what the input
names and where its document goes.
-/
theorem found_of_resolve (sound : tree.Sound)
    (resolved : resolve peer seconds workDir input tree traffic = (.ok document, after, later))
    : ∃ content, Found peer workDir input tree traffic document content
        ∧ after.read document.path = .ok content := by
  unfold resolve at resolved
  by_cases web : Url.isWebAddress input = true
  · rw [if_pos web] at resolved
    unfold atAddress at resolved
    cases workDir with
    | some directory =>
        rcases fetched : Download.toFile peer seconds input
          (Path.join directory (Url.fileName input)) tree traffic with ⟨result, last, between⟩
        simp only [fetched] at resolved
        cases result with
        | error failure => cases resolved
        | ok bytes =>
            cases resolved
            obtain ⟨body, given, rfl, reads⟩ := Download.toFile_ok sound fetched
            refine ⟨body, .kept web given rfl, ?_⟩
            rw [path]
            exact reads
    | none =>
        have created : (tree.put (tree.freshLocation []) .directory).Sound :=
          sound.put_fresh .directory tree.lookup_root
        rcases fetched : Download.toFile peer seconds input
          (temporaryPath (tree.freshLocation []) (Url.fileName input))
          (tree.put (tree.freshLocation []) .directory) traffic with ⟨result, last, between⟩
        simp only [fetched] at resolved
        cases result with
        | error failure => cases resolved
        | ok bytes =>
            cases resolved
            obtain ⟨body, given, rfl, reads⟩ := Download.toFile_ok created fetched
            refine ⟨body, .temporary web given rfl, ?_⟩
            rw [path]
            exact reads
  · rw [if_neg web] at resolved
    unfold atPath at resolved
    split at resolved
    · cases reads : tree.read input with
      | error fault =>
          rw [Document.content, reads] at resolved
          cases resolved
      | ok content =>
          rw [Document.content, reads] at resolved
          cases resolved
          exact ⟨content, .present (by simpa using web) reads, reads⟩
    · cases resolved

namespace Found

variable {content : Bytes}

/-- A document from an address is what the peer gave, and is counted as such. -/
theorem given (found : Found peer workDir input tree traffic document content)
    (address : Url.isWebAddress input = true)
    : Download.Gives peer input traffic content
      ∧ document.downloadedBytes = content.length := by
  cases found with
  | present path =>
      rw [address] at path
      cases path
  | kept _ given => exact ⟨given, rfl⟩
  | temporary _ given => exact ⟨given, rfl⟩

theorem eq_present (found : Found peer workDir input tree traffic document content)
    (path : Url.isWebAddress input = false)
    : document = .present input ∧ tree.read input = .ok content := by
  cases found with
  | present _ reads => exact ⟨rfl, reads⟩
  | kept address | temporary address =>
      rw [address] at path
      cases path

theorem path_eq_join (found : Found peer workDir input tree traffic document content)
    (address : Url.isWebAddress input = true) {directory : String}
    (keeps : workDir = some directory)
    : document.path = Path.join directory (Url.fileName input) := by
  subst keeps
  cases found with
  | present path =>
      rw [address] at path
      cases path
  | kept _ _ same => rw [Option.some.inj same, path]
  | temporary _ _ none => cases none

/-- The name of a document from an address follows from the address. -/
theorem fileName_eq (found : Found peer workDir input tree traffic document content)
    (address : Url.isWebAddress input = true)
    : Path.fileName? document.path = some (Url.fileName input).toList := by
  obtain ⟨named, plain⟩ := Url.fileName_isName input
  cases found with
  | present path =>
      rw [address] at path
      cases path
  | kept =>
      rw [path]
      exact Path.fileName?_join named plain
  | temporary =>
      rw [path, temporaryPath]
      exact Path.fileName?_join named plain

/-- A document that is not fetched for a single run stays when the run is over. -/
theorem release_eq (found : Found peer workDir input tree traffic document content)
    (keeps : ¬ (Url.isWebAddress input = true ∧ workDir = none)) (last : Tree)
    : document.release last = last := by
  cases found with
  | present | kept => rfl
  | temporary address _ none => exact absurd ⟨address, none⟩ keeps

end Found

theorem size_of_read {content : Bytes} (reads : tree.read document.path = .ok content)
    : document.size tree = .ok content.length := by
  rw [size, Tree.entryAt_of_read reads]

end Document
end DocPipeline
