import DocPipeline.Proofs.Document.Found
import DocPipeline.Proofs.Run.AllOrNothing

/-! What a run leaves in the tree. A document that is kept is one entry directly inside the work
directory, and apart from the directories that lead there nothing else changes. Every other run
leaves the tree as it was.
-/

namespace DocPipeline

namespace Document

variable {tree : Tree} {workDir : Option String} {input directory : String}

theorem keptPath?_eq_none (none : Url.isWebAddress input = false ∨ workDir = none)
    : keptPath? workDir input = .none := by
  unfold keptPath?
  rcases none with path | rfl
  · simp [path]
  · simp

theorem keptPath?_eq_some (address : Url.isWebAddress input = true)
    : keptPath? (some directory) input = some (Path.join directory (Url.fileName input)) := by
  simp [keptPath?, address]

/-- The entry of a document that is kept: its name, directly inside the place of the work directory.
-/
def keptEntry (tree : Tree) (directory input : String) : Location :=
  tree.placeOf directory ++ [(Url.fileName input).toList]

theorem placeOf_kept (tree : Tree) (directory input : String)
    : tree.placeOf (Path.join directory (Url.fileName input)) = keptEntry tree directory input :=
  have named := Url.fileName_isName input
  Tree.placeOf_join tree named.1 named.2

theorem isKept_iff (address : Url.isWebAddress input = true) {place : Location}
    : IsKept tree (some directory) input place ↔ place = keptEntry tree directory input := by
  simp [IsKept, keptPath?_eq_some address, placeOf_kept]

theorem onWayToKept_iff (address : Url.isWebAddress input = true) {place : Location}
    : OnWayToKept tree (some directory) input place ↔ tree.Toward directory place := by
  simp [OnWayToKept, keptPath?_eq_some address, Tree.onWay_join tree (Url.fileName_isName input).1]

/-- Getting a document to keep it changes nothing unless the peer gives a body for its address. -/
theorem resolve_tree_of_ungiven {peer : Web.Peer} {traffic : Web.Traffic} (seconds : Nat)
    (directory : String) (tree : Tree) (address : Url.isWebAddress input = true)
    (ungiven : ¬ ∃ body, Download.Gives peer input traffic body)
    : (resolve peer seconds (some directory) input tree traffic).2.1 = tree := by
  have unchanged := Download.toFile_tree seconds (Path.join directory (Url.fileName input)) tree
    ungiven
  unfold resolve atAddress
  simp only [if_pos address]
  rcases fetched : Download.toFile peer seconds input (Path.join directory (Url.fileName input))
    tree traffic with ⟨result, after, later⟩
  rwa [fetched] at unchanged

end Document

namespace Run

variable {σ : Type}

/-- A run that keeps its document leaves the tree in which it was found. -/
theorem deliver_tree_of_kept {plan : Plan σ} {policy : Policy} {directory input : String}
    {scene : Scene σ} {result : Except Failure Document} {after : Tree} {traffic : Web.Traffic}
    (sound : scene.tree.Sound) (keeps : plan.settings.workDir = some directory)
    (chosen : outputPolicy plan.graph = .ok policy)
    (resolved : Document.resolve plan.peer plan.settings.downloadSeconds.toNat plan.settings.workDir
      input scene.tree scene.outside.traffic = (result, after, traffic))
    : ((deliver plan input).outcome scene).2.tree = after := by
  rw [deliver_tree_of_resolved chosen resolved]
  cases result with
  | error failure => rfl
  | ok document =>
      obtain ⟨content, how, _⟩ := Document.found_of_resolve sound resolved
      exact how.release_eq (by simp [keeps]) after

/-- A run that would keep its document leaves the tree as it is unless a body is given for it. -/
theorem deliver_tree_of_ungiven {plan : Plan σ} {directory input : String} {scene : Scene σ}
    (sound : scene.tree.Sound) (address : Url.isWebAddress input = true)
    (keeps : plan.settings.workDir = some directory)
    (ungiven : ¬ ∃ body, Download.Gives plan.peer input scene.outside.traffic body)
    : ((deliver plan input).outcome scene).2.tree = scene.tree := by
  cases chosen : outputPolicy plan.graph with
  | error failure => exact deliver_tree_of_refused input scene chosen
  | ok policy =>
      have unchanged := Document.resolve_tree_of_ungiven plan.settings.downloadSeconds.toNat
        directory scene.tree address ungiven
      rcases resolved : Document.resolve plan.peer plan.settings.downloadSeconds.toNat
        plan.settings.workDir input scene.tree scene.outside.traffic with ⟨result, after, traffic⟩
      rw [← keeps, resolved] at unchanged
      exact (deliver_tree_of_kept sound keeps chosen resolved).trans unchanged

/-- A run that does not keep its document leaves the tree as it was: the same stands at every place.
A run that keeps it changes at most the entry of its name directly inside the work directory, and
creates at most directories that are missing on the way there. Whatever it changes, the peer has
given the whole body of a successful answer; and once the document is found its entry holds exactly
that body, however the run ends.
-/
theorem deliver_leaves_document_only (plan : Plan σ) (input : String) (scene : Scene σ)
    (sound : scene.tree.Sound)
    : let last := ((deliver plan input).outcome scene).2
      let given := Download.Gives plan.peer input scene.outside.traffic
      ((Url.isWebAddress input = false ∨ plan.settings.workDir = none)
        → last.tree.home = scene.tree.home
          ∧ ∀ place, last.tree.lookup place = scene.tree.lookup place)
      ∧ ∀ directory,
          Url.isWebAddress input = true → plan.settings.workDir = some directory
          → let entry := Document.keptEntry scene.tree directory input
            scene.tree.placeOf (Path.join directory (Url.fileName input)) = entry
            ∧ scene.tree.Becomes last.tree (scene.tree.Toward directory) (· = entry)
            ∧ (last.tree ≠ scene.tree → ∃ body, given body)
            ∧ (plan.graph.validate = .ok ()
                → ∀ document, ((resolve plan input).outcome scene).1 = .ok document
                  → ∃ body, given body ∧ last.tree.lookup entry = some (.file body)) := by
  intro last given
  have becomes : scene.tree.Becomes last.tree _ _ := deliver_becomes plan input scene sound
  refine ⟨?_, ?_⟩
  · intro unkept
    have nowhere := Document.keptPath?_eq_none unkept
    refine ⟨becomes.home, fun place => becomes.lookup_eq ?_ ?_⟩
    · rintro ⟨path, kept, _⟩
      rw [nowhere] at kept
      cases kept
    · rintro ⟨path, kept, _⟩
      rw [nowhere] at kept
      cases kept
  · intro directory address keeps entry
    rw [keeps] at becomes
    refine ⟨Document.placeOf_kept scene.tree directory input, ?_, ?_, ?_⟩
    · exact becomes.mono (fun place => (Document.onWayToKept_iff address).mp)
        fun place => (Document.isKept_iff address).mp
    · intro changed
      by_contra ungiven
      exact changed (deliver_tree_of_ungiven sound address keeps ungiven)
    · intro valid document found
      rcases resolved : Document.resolve plan.peer plan.settings.downloadSeconds.toNat
        plan.settings.workDir input scene.tree scene.outside.traffic with ⟨result, after, traffic⟩
      rw [resolve_outcome plan input scene resolved] at found
      obtain rfl : result = .ok document := found
      obtain ⟨policy, _, chosen⟩ := outputPolicy_of_valid valid
      have ends : last.tree = after := deliver_tree_of_kept sound keeps chosen resolved
      obtain ⟨body, how, reads⟩ := Document.found_of_resolve sound resolved
      have fetched := Tree.lookup_of_read reads
      rw [ends]
      cases how with
      | present path =>
          rw [address] at path
          cases path
      | temporary _ _ none =>
          rw [keeps] at none
          cases none
      | kept _ given kept =>
          obtain rfl := Option.some.inj (keeps.symm.trans kept)
          refine ⟨body, given, ?_⟩
          have home : after.home = scene.tree.home := ends ▸ becomes.home
          dsimp only [Document.path] at fetched
          rwa [Tree.placeOf_of_home home, Document.placeOf_kept] at fetched

/-- A run on a document that somebody on the web gives. -/
def fetchingPlan (workDir : Option String) : Plan Memory :=
  { twoStepPlan with
    settings := { Settings.standard with workDir := workDir }
    peer := fun _ => .answer ⟨200, [], [1, 255], .whole⟩ }

/-- The document of a run is kept byte for byte in a work directory that is created for it; without
a work directory nothing is left of it.
-/
theorem deliver_leaves_document_only_of_new_directory
    : let input := "http://h/a.b"
      let kept := ((deliver (fetchingPlan (some "in")) input).outcome oneDocument).2.tree
      let gone := ((deliver (fetchingPlan none) input).outcome oneDocument).2.tree
      oneDocument.tree.lookup ["in".toList] = none
      ∧ kept.lookup ["in".toList, "a.b".toList] = some (.file [1, 255])
      ∧ ∀ place, gone.lookup place = oneDocument.tree.lookup place := by
  intro input kept gone
  obtain ⟨_, unchanged⟩ := (deliver_leaves_document_only (fetchingPlan none) input oneDocument
    oneDocument_sound).1 (.inr rfl)
  refine ⟨by decide, ?_, unchanged⟩
  have parsed : Url.parse input = .ok
      ⟨"http".toList, [], [], some "h".toList, none, .segments ["a.b".toList], none, none⟩ := by
    decide +kernel
  have named : Url.fileName input = "a.b" := by
    rw [Url.fileName, parsed]
    decide
  have sent : (Download.fetch (fetchingPlan (some "in")).peer 0 input .none).1 = .ok [1, 255] := by
    unfold Download.fetch
    simp only [parsed]
    decide +kernel
  have resolved : ((resolve (fetchingPlan (some "in")) input).outcome oneDocument).1
      = .ok (.kept "in/a.b" 2) := by
    unfold resolve Document.resolve Document.atAddress Download.toFile Download.fetch
    simp only [parsed, named]
    decide +kernel
  have address : Url.isWebAddress input = true := by decide +kernel
  obtain ⟨_, _, _, holds⟩ := (deliver_leaves_document_only (fetchingPlan (some "in")) input
    oneDocument oneDocument_sound).2 "in" address rfl
  obtain ⟨body, given, stands⟩ := holds (by decide) _ resolved
  have same : (Download.fetch (fetchingPlan (some "in")).peer 0 input .none).1 = .ok body :=
    Download.fetch_eq_ok_iff.mpr given
  obtain rfl : [1, 255] = body := Except.ok.inj (sent.symm.trans same)
  rwa [Document.keptEntry, named] at stands

end Run
end DocPipeline
