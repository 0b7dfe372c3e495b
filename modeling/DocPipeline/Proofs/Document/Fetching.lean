import DocPipeline.Proofs.Document.Found
import DocPipeline.Proofs.Web.Hops

/-! Downloads from beginning to end. Either the peer gives a body, which then is in its file or
could not be stored, or it gives none and the tree stays as it was. However it ends, at most one
request is made.
-/

namespace DocPipeline.Download

variable {tree after : Tree} {traffic later : Web.Traffic} {peer : Web.Peer} {seconds : Nat}
  {url path : String} {body : Bytes} {fault : PathFault} {late : Bool}

-----------------------------------------------------------------------------------------
-- What peers give
-----------------------------------------------------------------------------------------

theorem Gives.unique {other : Bytes} (given : Gives peer url traffic body)
    (again : Gives peer url traffic other) : body = other := by
  have fetched : (fetch peer 0 url traffic).1 = .ok body := fetch_eq_ok_iff.mpr given
  have refetched : (fetch peer 0 url traffic).1 = .ok other := fetch_eq_ok_iff.mpr again
  exact Except.ok.inj (fetched.symm.trans refetched)

/-- Why a peer gives no body for an address, and whether it is for want of time. -/
inductive GivesNothing (peer : Web.Peer) (url : String) (traffic : Web.Traffic) : Bool → Prop
  | unreadable {fault : Url.Fault} (parsed : Url.parse url = .error fault)
    : GivesNothing peer url traffic false
  | unanswered {address : Url} {fault : Web.Fault} {later : Web.Traffic}
    (parsed : Url.parse url = .ok address)
    (sent : Web.send peer .get address .nothing traffic = (.error fault, later))
    (heard : ¬ Web.EndsInSilence peer traffic later) : GivesNothing peer url traffic false
  | silent {address : Url} {fault : Web.Fault} {later : Web.Traffic}
    (parsed : Url.parse url = .ok address)
    (sent : Web.send peer .get address .nothing traffic = (.error fault, later))
    (silence : Web.EndsInSilence peer traffic later) : GivesNothing peer url traffic true
  | refused {address : Url} {answer : Web.Answer} {later : Web.Traffic}
    (parsed : Url.parse url = .ok address)
    (sent : Web.send peer .get address .nothing traffic = (.ok answer, later))
    (refusal : Web.Code.isSuccess answer.code = false) : GivesNothing peer url traffic false
  | cut {address : Url} {answer : Web.Answer} {later : Web.Traffic}
    (parsed : Url.parse url = .ok address)
    (sent : Web.send peer .get address .nothing traffic = (.ok answer, later))
    (success : Web.Code.isSuccess answer.code = true) (arrives : answer.arrival = .cut)
    : GivesNothing peer url traffic false
  | late {address : Url} {answer : Web.Answer} {later : Web.Traffic}
    (parsed : Url.parse url = .ok address)
    (sent : Web.send peer .get address .nothing traffic = (.ok answer, later))
    (success : Web.Code.isSuccess answer.code = true) (arrives : answer.arrival = .late)
    : GivesNothing peer url traffic true

/-- A fetch without a body fails for want of time exactly where that is why there is none. -/
def Fails (url : String) (seconds : Nat) (late : Bool) (failure : Failure) : Prop :=
  if late then failure = .downloadTimedOut url seconds
  else ∃ reason, failure = .downloadFailed url reason

theorem failure_fails (url : String) (seconds : Nat) (fault : Web.Fault)
    : Fails url seconds fault.isLate (failure url seconds fault) := by
  unfold Fails failure
  cases fault.isLate with
  | true => rfl
  | false => exact ⟨fault.message, rfl⟩

/-- A peer gives a body or nothing, by cases on its last answer. -/
theorem gives_or_givesNothing (peer : Web.Peer) (url : String) (traffic : Web.Traffic)
    : (∃ body, Gives peer url traffic body) ∨ ∃ late, GivesNothing peer url traffic late := by
  cases parsed : Url.parse url with
  | error fault => exact .inr ⟨false, .unreadable parsed⟩
  | ok address =>
      rcases sent : Web.send peer .get address .nothing traffic with ⟨result, later⟩
      cases result with
      | error fault =>
          by_cases silence : Web.EndsInSilence peer traffic later
          · exact .inr ⟨true, .silent parsed sent silence⟩
          · exact .inr ⟨false, .unanswered parsed sent silence⟩
      | ok answer =>
          cases success : Web.Code.isSuccess answer.code with
          | false => exact .inr ⟨false, .refused parsed sent success⟩
          | true =>
              cases arrives : answer.arrival with
              | whole =>
                  exact .inl ⟨answer.body, address, answer, parsed, by rw [sent], success, arrives,
                    rfl⟩
              | cut => exact .inr ⟨false, .cut parsed sent success arrives⟩
              | late => exact .inr ⟨true, .late parsed sent success arrives⟩

/-- What is fetched from a peer that gives nothing is a failure, by cases on the reason. -/
theorem GivesNothing.fetch_fails (nothing : GivesNothing peer url traffic late) (seconds : Nat)
    : ∃ failure, (fetch peer seconds url traffic).1 = .error failure
        ∧ Fails url seconds late failure := by
  unfold fetch
  cases nothing with
  | unreadable parsed =>
      rw [parsed]
      exact ⟨_, rfl, failure_fails url seconds .badAddress⟩
  | unanswered parsed sent heard =>
      rw [parsed]
      dsimp only
      rw [sent]
      refine ⟨_, rfl, ?_⟩
      have inTime := mt (Web.send_isLate_iff sent).mp heard
      rw [← Bool.eq_false_iff.mpr inTime]
      exact failure_fails url seconds _
  | silent parsed sent silence =>
      rw [parsed]
      dsimp only
      rw [sent]
      refine ⟨_, rfl, ?_⟩
      rw [← (Web.send_isLate_iff sent).mpr silence]
      exact failure_fails url seconds _
  | refused parsed sent refusal =>
      rw [parsed]
      dsimp only
      rw [sent]
      dsimp only
      rw [if_neg (Bool.eq_false_iff.mp refusal)]
      exact ⟨_, rfl, _, rfl⟩
  | cut parsed sent success arrives | late parsed sent success arrives =>
      rw [parsed]
      dsimp only
      rw [sent]
      dsimp only
      rw [if_pos success, Web.Answer.wholeBody, arrives]
      exact ⟨_, rfl, failure_fails url seconds (.incomplete _)⟩

/-- The requests that a fetch makes: one, or none if there is no address to ask. -/
def requests (url : String) : List Web.Request :=
  (Url.parse url).toOption.toList.map (.to .get · .nothing)

theorem length_requests_le (url : String) : (requests url).length ≤ 1 := by
  unfold requests
  cases Url.parse url <;> simp [Except.toOption]

theorem fetch_sent (peer : Web.Peer) (seconds : Nat) (url : String) (traffic : Web.Traffic)
    : Web.Sent peer (requests url) traffic (fetch peer seconds url traffic).2 := by
  unfold fetch requests
  cases Url.parse url with
  | error fault => exact .none traffic
  | ok address =>
      have sent := Web.send_sent peer .get address .nothing traffic
      dsimp only
      rcases asked : Web.send peer .get address .nothing traffic with ⟨result, later⟩
      rw [asked] at sent
      cases result with
      | error fault => exact sent
      | ok answer =>
          dsimp only
          split <;> exact sent

-----------------------------------------------------------------------------------------
-- Files that cannot be stored
-----------------------------------------------------------------------------------------

/-- Why a body cannot be stored: the directory for its file cannot be created, or the file cannot be
opened there.
-/
inductive Unstorable (tree : Tree) (path : String) (body : Bytes) : PathFault → Prop
  | directory {between : Tree} {fault : PathFault}
    (created : tree.createDirectories (Path.parent path) = (.error fault, between))
    : Unstorable tree path body fault
  | file {between : Tree} {fault : PathFault}
    (created : tree.createDirectories (Path.parent path) = (.ok (), between))
    (written : between.write path body = .error fault) : Unstorable tree path body fault

/-- Nothing can be stored inside a file. -/
theorem unstorable_of_isFile (body : Bytes) (there : tree.isFile (Path.parent path) = true)
    : Unstorable tree path body .exists := by
  obtain ⟨entry, other, stands⟩ := Tree.exists_entryAt_of_isFile there
  obtain ⟨spot, found, here, _⟩ := Tree.entryAt_eq_ok_iff.mp stands
  have named : Path.parent path ≠ "" := by
    intro empty
    rw [empty] at found
    cases found
  have taken : tree.createDirectory (Path.parent path) = .error .exists := by
    rw [Tree.createDirectory, found, Except.ok_bind, if_pos (by simp [here])]
    rfl
  have other : tree.isDirectory (Path.parent path) = false := by
    rw [Tree.isDirectory, stands]
    cases entry with
    | directory => exact absurd rfl other
    | file | sealed => rfl
  have refused : tree.createDirectories (Path.parent path) = (.error .exists, tree) := by
    rw [Tree.createDirectories, Path.withParents, List.filter_cons_of_pos (by simpa using named),
      Tree.createFirst, taken]
    dsimp only
    rw [Tree.acceptDirectory, if_neg (by simp [other])]
  exact .directory refused

/-- What cannot be stored changes no file, since directories are all that comes before it. -/
theorem Unstorable.store_fails (sound : tree.Sound) (unstorable : Unstorable tree path body fault)
    : (store path body tree).1 = .error (.writeFailed path fault.message)
      ∧ tree.Becomes (store path body tree).2 (tree.OnWay path) (fun _ => False) := by
  have parents : tree.Becomes _ (tree.OnWay path) (fun _ => False) := parents_become sound path
  unfold store
  cases unstorable with
  | directory created =>
      rw [created] at parents ⊢
      exact ⟨rfl, parents⟩
  | file created written =>
      rw [created] at parents ⊢
      dsimp only
      rw [written]
      exact ⟨rfl, parents⟩

/-- What can be stored is stored, in a directory that is there afterwards. -/
theorem store_done (sound : tree.Sound) (room : ∀ fault, ¬ Unstorable tree path body fault)
    : (store path body tree).1 = .ok ()
      ∧ (Path.parent path ≠ ""
        → (store path body tree).2.isDirectory (Path.parent path) = true) := by
  have parents : tree.Becomes _ (tree.OnWay path) (fun _ => False) := parents_become sound path
  unfold store
  rcases created : tree.createDirectories (Path.parent path) with ⟨result, between⟩
  rw [created] at parents
  cases result with
  | error fault => exact absurd (.directory created) (room fault)
  | ok _ =>
      dsimp only at parents ⊢
      cases written : between.write path body with
      | error fault => exact absurd (.file created written) (room fault)
      | ok last =>
          have becomes : between.Becomes last (fun _ => False) (· = between.placeOf path) :=
            Tree.write_becomes parents.sound written
          exact ⟨rfl, fun further => becomes.keeps.isDirectory
            (Tree.isDirectory_of_createDirectories sound further created)⟩

-----------------------------------------------------------------------------------------
-- Downloads as a whole
-----------------------------------------------------------------------------------------

theorem toFile_of_gives (given : Gives peer url traffic body) (seconds : Nat) (path : String)
    (tree : Tree)
    : (toFile peer seconds url path tree traffic).1
        = (store path body tree).1.map (fun _ => body.length)
      ∧ (toFile peer seconds url path tree traffic).2.1 = (store path body tree).2 := by
  have fetched : (fetch peer seconds url traffic).1 = .ok body := fetch_eq_ok_iff.mpr given
  unfold toFile
  rcases asked : fetch peer seconds url traffic with ⟨result, later⟩
  rw [asked] at fetched
  obtain rfl : result = .ok body := fetched
  dsimp only
  rcases store path body tree with ⟨stored, last⟩
  exact ⟨rfl, rfl⟩

theorem toFile_of_givesNothing (nothing : GivesNothing peer url traffic late) (seconds : Nat)
    (path : String) (tree : Tree)
    : (toFile peer seconds url path tree traffic).2.1 = tree
      ∧ ∃ failure, (toFile peer seconds url path tree traffic).1 = .error failure
          ∧ Fails url seconds late failure := by
  obtain ⟨failure, fetched, fails⟩ := nothing.fetch_fails seconds
  unfold toFile
  rcases asked : fetch peer seconds url traffic with ⟨result, later⟩
  rw [asked] at fetched
  obtain rfl : result = .error failure := fetched
  exact ⟨rfl, failure, rfl, fails⟩

theorem toFile_sent (peer : Web.Peer) (seconds : Nat) (url path : String) (tree : Tree)
    (traffic : Web.Traffic)
    : Web.Sent peer (requests url) traffic
        (toFile peer seconds url path tree traffic).2.2 := by
  have sent := fetch_sent peer seconds url traffic
  unfold toFile
  rcases asked : fetch peer seconds url traffic with ⟨result, later⟩
  rw [asked] at sent
  cases result <;> exact sent

/-- A download is all or nothing with respect to the web. If it succeeds then its file holds exactly
the body that the peer gave, in a directory that is there, and no other file has changed. If the
peer gives nothing then nothing at all has changed, and the failure tells whether time ran out. If
the body that it gives cannot be stored then that is the failure, and no file has changed. One of
the two is always the case, and either way no more than one request is made.
-/
theorem toFile_all_or_nothing (peer : Web.Peer) (seconds : Nat) (url path : String) (tree : Tree)
    (traffic : Web.Traffic) (sound : tree.Sound)
    : let fetched := toFile peer seconds url path tree traffic
      let after := fetched.2.1
      (∀ bytes, fetched.1 = .ok bytes
        → ∃ body, Gives peer url traffic body ∧ bytes = body.length
            ∧ after.read path = .ok body
            ∧ (Path.parent path ≠ "" → after.isDirectory (Path.parent path) = true)
            ∧ tree.Becomes after (tree.OnWay path) (· = tree.placeOf path))
      ∧ (∀ late, GivesNothing peer url traffic late
        → after = tree
          ∧ ∃ failure, fetched.1 = .error failure ∧ Fails url seconds late failure)
      ∧ (∀ body, Gives peer url traffic body
        → (∀ fault, Unstorable tree path body fault
            → fetched.1 = .error (.writeFailed path fault.message)
              ∧ tree.Becomes after (tree.OnWay path) (fun _ => False))
          ∧ ((∀ fault, ¬ Unstorable tree path body fault) → fetched.1 = .ok body.length))
      ∧ ((∃ body, Gives peer url traffic body) ∨ ∃ late, GivesNothing peer url traffic late)
      ∧ (requests url).length ≤ 1
      ∧ Web.Sent peer (requests url) traffic fetched.2.2 := by
  dsimp only
  have unstored {body : Bytes} {fault : PathFault} (given : Gives peer url traffic body)
      (unstorable : Unstorable tree path body fault)
      : (toFile peer seconds url path tree traffic).1
          = .error (.writeFailed path fault.message)
        ∧ tree.Becomes (toFile peer seconds url path tree traffic).2.1 (tree.OnWay path)
            (fun _ => False) := by
    obtain ⟨result, last⟩ := toFile_of_gives given seconds path tree
    rw [result, last, (unstorable.store_fails sound).1]
    exact ⟨rfl, (unstorable.store_fails sound).2⟩
  refine ⟨?_, fun late nothing => toFile_of_givesNothing nothing seconds path tree, ?_,
    gives_or_givesNothing peer url traffic, length_requests_le url,
    toFile_sent peer seconds url path tree traffic⟩
  · intro bytes done
    obtain ⟨body, given, counted, reads⟩ := toFile_ok sound (Prod.ext done rfl)
    have room (fault : PathFault) : ¬ Unstorable tree path body fault := by
      intro unstorable
      cases done.symm.trans (unstored given unstorable).1
    obtain ⟨_, parent⟩ := store_done sound room
    obtain ⟨_, last⟩ := toFile_of_gives given seconds path tree
    rw [← last] at parent
    exact ⟨body, given, counted, reads, parent,
      toFile_becomes sound peer seconds url path traffic⟩
  · intro body given
    refine ⟨fun fault unstorable => unstored given unstorable, fun room => ?_⟩
    obtain ⟨result, _⟩ := toFile_of_gives given seconds path tree
    rw [result, (store_done sound room).1]
    rfl

/-- A tree with one file in it. -/
def oneFile : Tree := ⟨[], [(["a.b".toList], .file [7])]⟩

theorem oneFile_sound : oneFile.Sound where
  home := rfl
  parent := by
    intro place name stands
    cases place with
    | nil => rfl
    | cons first rest => exact absurd (by simp [Tree.lookup, oneFile]) stands

/-- A body is stored in a new directory beside the file that is there; silence leaves that file as
it is under its own name, and so does a download that would go inside it.
-/
theorem toFile_all_or_nothing_of_one_file
    : let url := "http://h/a.b"
      let giving : Web.Peer := fun _ => .answer ⟨200, [], [1, 255], .whole⟩
      let stored := toFile giving 5 url "in/a.b" oneFile .none
      let late := toFile (fun _ => .silence) 5 url "a.b" oneFile .none
      let inside := toFile giving 5 url "a.b/c" oneFile .none
      stored.1 = .ok 2
      ∧ stored.2.1.read "in/a.b" = .ok [1, 255]
      ∧ stored.2.1.isDirectory "in" = true
      ∧ late.1 = .error (.downloadTimedOut url 5)
      ∧ late.2.1 = oneFile
      ∧ inside.1 = .error (.writeFailed "a.b/c" "File exists (os error 17)")
      ∧ inside.2.1.lookup ["a.b".toList] = some (.file [7]) := by
  intro url giving
  dsimp only
  have parsed : Url.parse url = .ok
      ⟨"http".toList, [], [], some "h".toList, none, .segments ["a.b".toList], none, none⟩ := by
    decide +kernel
  have given : Gives giving url .none [1, 255] :=
    ⟨_, ⟨200, [], [1, 255], .whole⟩, parsed, by decide +kernel, by decide, rfl, rfl⟩
  have silence : GivesNothing (fun _ => .silence) url .none true :=
    .silent parsed (Prod.ext rfl rfl) (by unfold Web.EndsInSilence; decide +kernel)
  have stored := toFile_all_or_nothing giving 5 url "in/a.b" oneFile .none oneFile_sound
  have late := toFile_all_or_nothing (fun _ => .silence) 5 url "a.b" oneFile .none oneFile_sound
  have inside := toFile_all_or_nothing giving 5 url "a.b/c" oneFile .none oneFile_sound
  dsimp only at stored late inside
  have done : (toFile giving 5 url "in/a.b" oneFile .none).1 = .ok 2 := by
    rw [(toFile_of_gives given 5 "in/a.b" oneFile).1]
    decide +kernel
  obtain ⟨body, same, _, reads, directory, _⟩ := stored.1 2 done
  obtain rfl := same.unique given
  have parent : Path.parent "in/a.b" = "in" := by decide +kernel
  rw [parent] at directory
  obtain ⟨unchanged, _, failed, rfl⟩ := late.2.1 true silence
  have unstorable : Unstorable oneFile "a.b/c" [1, 255] .exists :=
    unstorable_of_isFile _ (by decide +kernel)
  obtain ⟨refused, becomes⟩ := (inside.2.2.1 _ given).1 _ unstorable
  refine ⟨done, reads, directory (by decide), failed, unchanged, refused, ?_⟩
  rw [becomes.lookup_eq (by simp [oneFile, Tree.lookup]) not_false]
  decide

end DocPipeline.Download
