import DocPipeline.Proofs.Service.Address
import DocPipeline.Proofs.Service.Requests

/-! Requests of a client stay where its base is. Names change the path of an address only, whatever
they consist of, and the segments that they add cannot be read as anything but segments behind those
of the base.
-/

namespace DocPipeline

namespace Url

variable {base url : Url} {front behind : List (List Char)} {name : List Char}

-----------------------------------------------------------------------------------------
-- Segments that stay where they are
-----------------------------------------------------------------------------------------

/-- A segment that is one segment and nothing else: it neither ends the path nor leads to another
directory.
-/
structure IsInert (segment : List Char) : Prop where
  slash : '/' ∉ segment
  backslash : '\\' ∉ segment
  query : '?' ∉ segment
  fragment : '#' ∉ segment
  notHere : isHere segment = false
  notAbove : isAbove segment = false

theorem isInert_empty : IsInert [] where
  slash := List.not_mem_nil
  backslash := List.not_mem_nil
  query := List.not_mem_nil
  fragment := List.not_mem_nil
  notHere := by decide
  notAbove := by decide

/-- What is encoded for a segment is inert unless it is one of points. -/
theorem isInert_encode {cs : List Char} (notHere : isHere (encode inWebSegment cs) = false)
    (notAbove : isAbove (encode inWebSegment cs) = false) : IsInert (encode inWebSegment cs) where
  slash := not_mem_encode slash_reserved (by decide) cs
  backslash := not_mem_encode (by simp [inWebSegment]) (by decide) cs
  query := not_mem_encode (by simp [inWebSegment_eq]) (by decide) cs
  fragment := not_mem_encode (by simp [inWebSegment_eq]) (by decide) cs
  notHere := notHere
  notAbove := notAbove

/-- What a segment of a name does to those before it: it adds an inert one, or it leaves an empty
one in place of the last of them.
-/
theorem addSegment_cases (segments : List (List Char)) (cs : List Char)
    : (∃ segment, IsInert segment
        ∧ addSegment .server true segments (encode inWebSegment cs) = segments ++ [segment])
      ∨ addSegment .server true segments (encode inWebSegment cs) = segments.dropLast ++ [[]] := by
  rw [addSegment_server]
  cases up : isAbove (encode inWebSegment cs) with
  | true => exact .inr rfl
  | false =>
      cases here : isHere (encode inWebSegment cs) with
      | true => exact .inl ⟨[], isInert_empty, rfl⟩
      | false => exact .inl ⟨_, isInert_encode here up, rfl⟩

/-- What a name does to the segments before it: nothing, or what its segment does to them, for which
an only segment that is empty gives way.
-/
theorem addName_cases (segments : List (List Char)) (name : List Char)
    : addName .server segments name = segments
      ∨ ∃ cs, addName .server segments name
          = addSegment .server true (if segments = [[]] then [] else segments)
              (encode inWebSegment cs) := by
  by_cases here : name = ['.']
  · exact .inl (by simp [addName, here])
  · by_cases up : name = ['.', '.']
    · exact .inl (by simp [addName, up])
    · exact .inr ⟨_, addName_server segments here up⟩

/-- Segments with inert ones behind them that are not taken away. -/
def Stays (front segments : List (List Char)) : Prop :=
  ∃ behind, behind ≠ [] ∧ segments = front ++ behind ∧ ∀ segment ∈ behind, IsInert segment

/-- A name leaves the segments in front alone, and something inert behind them. -/
theorem Stays.addName {segments : List (List Char)} (stays : Stays front segments)
    (name : List Char) : Stays front (addName .server segments name) := by
  obtain ⟨behind, filled, rfl, inert⟩ := stays
  rcases addName_cases (front ++ behind) name with same | ⟨cs, added⟩
  · exact ⟨behind, filled, same, inert⟩
  rw [added]
  by_cases only : front ++ behind = [[]]
  · -- the empty segment that gives way is one of those behind
    have bare : front = [] := by
      cases front with
      | nil => rfl
      | cons first rest => cases rest <;> simp_all
    rw [if_pos only, bare]
    rcases addSegment_cases [] cs with ⟨segment, one, added⟩ | added
    · exact ⟨[segment], List.cons_ne_nil _ _, added, List.forall_mem_singleton.mpr one⟩
    · exact ⟨[[]], List.cons_ne_nil _ _, added, List.forall_mem_singleton.mpr isInert_empty⟩
  · rw [if_neg only]
    rcases addSegment_cases (front ++ behind) cs with ⟨segment, one, added⟩ | added
    · refine ⟨behind ++ [segment], by simp, by rw [added, List.append_assoc], ?_⟩
      exact List.forall_mem_append.mpr ⟨inert, List.forall_mem_singleton.mpr one⟩
    · refine ⟨behind.dropLast ++ [[]], by simp, ?_, ?_⟩
      · rw [added, List.dropLast_append_of_ne_nil filled, List.append_assoc]
      · exact List.forall_mem_append.mpr
          ⟨fun segment member => inert segment (List.dropLast_subset _ member),
            List.forall_mem_singleton.mpr isInert_empty⟩

/-- So do any number of names, by induction on them. -/
theorem Stays.withNames {segments : List (List Char)} (stays : Stays front segments)
    (names : List String) : Stays front (withNames segments names) := by
  induction names generalizing segments with
  | nil => exact stays
  | cons name names ih => exact ih (stays.addName name.toList)

-----------------------------------------------------------------------------------------
-- Addresses with another path
-----------------------------------------------------------------------------------------

/-- The address has the parts of another one, except for its path, and is written like it around the
path.
-/
structure DiffersInPath (base url : Url) : Prop where
  scheme : url.scheme = base.scheme
  username : url.username = base.username
  password : url.password = base.password
  host : url.host = base.host
  portNumber : url.portNumber = base.portNumber
  query : url.query = base.query
  fragment : url.fragment = base.fragment
  written : ∃ before after,
    base.text.toList = before ++ base.path.text ++ after
    ∧ url.text.toList = before ++ url.path.text ++ after

/-- An address of a host with another path differs in that only, also as it is written. -/
theorem differsInPath_of_host (hosted : base.host.isSome = true) (path : Path)
    : base.DiffersInPath { base with path := path } := by
  refine ⟨rfl, rfl, rfl, rfl, rfl, rfl, rfl, ?_⟩
  obtain ⟨host, some⟩ := Option.isSome_iff_exists.mp hosted
  have noGuard (p : Path) : ({ base with path := p } : Url).pathGuard = [] := by
    unfold pathGuard
    rw [some]
  refine ⟨base.scheme ++ ':' :: (['/', '/'] ++ base.userInfo ++ base.hostText),
    marked '?' base.query ++ marked '#' base.fragment, ?_, ?_⟩
  · have bare : base.pathGuard = [] := noGuard base.path
    rw [text, textWithoutFragment, bare, if_pos hosted, String.toList_ofList]
    simp only [List.append_assoc, List.cons_append, List.nil_append]
  · rw [text, textWithoutFragment, noGuard, if_pos hosted, String.toList_ofList]
    simp only [List.append_assoc, List.cons_append, List.nil_append]
    rfl

/-- The segments of a base that stay in front of names: its ground, but of two empty segments
nothing is left.
-/
def kept (base : Url) : List (List Char) :=
  if base.segments = [[], []] then [] else ground base.segments

/-- The address is one of the server of the base, and its path goes on behind the base with inert
segments.
-/
structure Confines (base url : Url) : Prop where
  differsInPath : base.DiffersInPath url
  stays : Stays base.kept url.segments

end Url

namespace Client

variable {σ : Type} {client : Client} {base : Url}

-----------------------------------------------------------------------------------------
-- Addresses of a client
-----------------------------------------------------------------------------------------

/-- The word for spaces is inert. -/
theorem isInert_namespaces : Url.IsInert (Url.segmentOf "namespaces") := by
  refine Url.isInert_encode ?_ ?_
  · change Url.isHere (Url.segmentOf "namespaces") = false
    rw [segmentOf_namespaces]
    decide +kernel
  · change Url.isAbove (Url.segmentOf "namespaces") = false
    rw [segmentOf_namespaces]
    decide +kernel

/-- Whatever the names are, there is an address for them that the base confines. -/
theorem exists_address_confined (parsed : Url.parse client.base = .ok base)
    (web : base.isWeb = true) (names : List String)
    : ∃ url, client.address names = .ok url ∧ base.Confines url := by
  have hosted := Url.parse_isHosted parsed web
  have front : Url.Stays base.kept (Client.front base) :=
    ⟨[Url.segmentOf "namespaces"], List.cons_ne_nil _ _, rfl,
      List.forall_mem_singleton.mpr isInert_namespaces⟩
  exact ⟨_, address_of_web parsed web names, Url.differsInPath_of_host hosted.host _,
    front.withNames (client.space :: names)⟩

/-- Without segments in front, the address of all graphs begins with a word: the one for spaces, or
the one for graphs if the space takes the former away.
-/
theorem exists_word_of_graphs (space : String)
    : ∃ word rest, word ≠ []
        ∧ Url.withNames [Url.segmentOf "namespaces"] [space, "extraction_graphs"]
          = word :: rest := by
  have spoken : Url.segmentOf "namespaces" ≠ [] := by
    rw [segmentOf_namespaces]
    decide +kernel
  have plain : Url.IsSegmentName "extraction_graphs" :=
    ⟨by decide, by decide, by simp [Url.isIgnored]⟩
  have graphs : Url.segmentOf "extraction_graphs" ≠ [] := by
    intro bare
    have bytes := Url.decode_segmentOf "extraction_graphs"
    rw [bare] at bytes
    exact absurd bytes (by decide +kernel)
  have step (segments : List (List Char))
      : Url.withNames segments ["extraction_graphs"]
        = (if segments = [[]] then [] else segments) ++ [Url.segmentOf "extraction_graphs"] :=
    Url.addName_of_plain segments plain
  change ∃ word rest, word ≠ []
    ∧ Url.withNames (Url.addName .server [Url.segmentOf "namespaces"] space.toList)
        ["extraction_graphs"] = word :: rest
  rw [step]
  rcases Url.addName_cases [Url.segmentOf "namespaces"] space.toList with same | ⟨cs, added⟩
  · exact ⟨_, _, spoken, by rw [same, if_neg (by simpa using spoken)]; rfl⟩
  · rw [if_neg (by simpa using spoken)] at added
    rw [added]
    rcases Url.addSegment_cases [Url.segmentOf "namespaces"] cs with ⟨segment, _, longer⟩ | gone
    · exact ⟨_, _, spoken, by rw [longer, if_neg (by simp)]; rfl⟩
    · exact ⟨_, _, graphs, by rw [gone]; rfl⟩

/-- All addresses of a client begin with the segments of its base, but for an empty one at the end,
exactly if the base does not consist of two empty segments.
-/
theorem addresses_begin_iff (parsed : Url.parse client.base = .ok base) (web : base.isWeb = true)
    : (∀ names url, client.address names = .ok url → Url.ground base.segments <+: url.segments)
      ↔ base.segments ≠ [[], []] := by
  constructor
  · intro begins double
    have asked := address_of_web parsed web ["extraction_graphs"]
    obtain ⟨word, rest, spoken, route⟩ := exists_word_of_graphs client.space
    have front : Client.front base = [Url.segmentOf "namespaces"] := by
      rw [Client.front, if_pos double]
      rfl
    have first : Url.ground base.segments <+: Url.withNames (Client.front base) _ :=
      begins _ _ asked
    rw [double, front, route] at first
    exact spoken (List.cons_prefix_cons.mp first).1.symm
  · intro apart names url asked
    obtain ⟨other, same, _, behind, _, route, _⟩ := exists_address_confined parsed web names
    obtain rfl := Except.ok.inj (asked.symm.trans same)
    rw [Url.kept, if_neg apart] at route
    exact ⟨behind, route.symm⟩

-----------------------------------------------------------------------------------------
-- Requests of a client
-----------------------------------------------------------------------------------------

/-- Whatever is asked is asked at addresses that the base confines. -/
def AsksWithin (base : Url) (peer : Web.Peer) (before after : Web.Traffic) : Prop :=
  ∃ requests, Web.Sent peer requests before after
    ∧ ∀ request ∈ requests, ∃ method url payload,
        request = .to method url payload ∧ base.Confines url

theorem composes_asksWithin (base : Url) (peer : Web.Peer)
    : Call.Composes (AsksWithin base peer) where
  none traffic := ⟨[], .none traffic, List.forall_mem_nil _⟩
  append := by
    rintro _ _ _ ⟨requests, sent, within⟩ ⟨more, further, alsoWithin⟩
    exact ⟨requests ++ more, sent.append further, List.forall_mem_append.mpr ⟨within, alsoWithin⟩⟩

/-- Asking at an address that was found for names asks within the base. -/
theorem ask_moves_within (parsed : Url.parse client.base = .ok base) (web : base.isWeb = true)
    (peer : Web.Peer) (operation : String) (method : Web.Method) (payload : Web.Payload)
    {names : List String} {url : Url} (found : client.address names = .ok url)
    : Call.Moves (AsksWithin base peer)
        (ask peer operation method url payload : Call σ Web.Answer) := by
  obtain ⟨other, same, confined⟩ := exists_address_confined parsed web names
  obtain rfl := Except.ok.inj (found.symm.trans same)
  intro outside
  exact ⟨_, Web.send_sent peer method url payload outside.traffic,
    List.forall_mem_singleton.mpr ⟨method, url, payload, rfl, confined⟩⟩

/-- Whatever the space and the names are, an address of a client on a server of the web has the
scheme, user information, host, number, query and fragment of its base, and names add inert segments
behind those of the base. It begins with all of the latter, but for an empty one at the end, exactly
if the base does not consist of two empty segments; of these the first one gives way as well. All
five operations ask at such addresses only.
-/
theorem requests_stay_on_base (parsed : Url.parse client.base = .ok base)
    (web : base.isWeb = true)
    : (∀ names, ∃ url, client.address names = .ok url ∧ base.Confines url)
      ∧ ((∀ names url, client.address names = .ok url → Url.ground base.segments <+: url.segments)
        ↔ base.segments ≠ [[], []])
      ∧ ∀ peer,
          (∀ graph, Call.Moves (AsksWithin base peer) (client.create peer graph : Call σ Unit))
          ∧ (∀ graph path tree,
              Call.Moves (AsksWithin base peer)
                (client.upload peer graph path tree : Call σ String))
          ∧ (∀ content,
              Call.Moves (AsksWithin base peer) (client.status peer content : Call σ Status))
          ∧ (∀ child,
              Call.Moves (AsksWithin base peer) (client.artifact peer child : Call σ Artifact))
          ∧ ∀ content graph policy,
              Call.Moves (AsksWithin base peer)
                (client.fetch peer content graph policy : Call σ (List Artifact)) := by
  refine ⟨exists_address_confined parsed web, addresses_begin_iff parsed web, fun peer => ?_⟩
  have composes := composes_asksWithin base peer
  have asks {names : List String} {url : Url} (operation : String) (method : Web.Method)
      (payload : Web.Payload) (found : client.address names = .ok url)
      : Call.Moves (AsksWithin base peer)
          (ask peer operation method url payload : Call σ Web.Answer) :=
    ask_moves_within parsed web peer operation method payload found
  have downloads (child : Wire.Child)
      : Call.Moves (AsksWithin base peer) (client.artifact peer child : Call σ Artifact) :=
    artifact_moves client peer composes child fun _ => asks _ _ _
  refine ⟨fun graph => ?_, fun graph path tree => ?_, fun content => ?_, downloads, ?_⟩
  · exact create_moves client peer composes graph fun _ => asks _ _ _
  · exact upload_moves client peer composes graph path tree fun _ _ => asks _ _ _
  · exact status_moves client peer composes content fun _ => asks _ _ _
  · intro content graph policy
    exact fetch_moves client peer composes content graph policy (fun _ => asks _ _ _) downloads

/-- A space and a content whose names look like ways out of the base stay in it. -/
theorem requests_stay_on_base_of_way_out
    : ∃ base url, Url.parse "http://u@host/api?q" = .ok base ∧ base.isWeb = true
      ∧ base.segments = ["api".toList]
      ∧ Client.address ⟨"http://u@host/api?q", "..", false⟩ ["content", "//evil/..?x#", "tasks"]
        = .ok url
      ∧ url.host = some "host".toList ∧ url.query = some "q".toList
      ∧ ["api".toList] <+: url.segments := by
  have parsed : Url.parse "http://u@host/api?q"
      = .ok ⟨"http".toList, "u".toList, [], some "host".toList, none,
          .segments ["api".toList], some "q".toList, none⟩ := by
    decide +kernel
  have web : Url.isWeb ⟨"http".toList, "u".toList, [], some "host".toList, none,
      .segments ["api".toList], some "q".toList, none⟩ = true := by
    decide
  obtain ⟨confined, begins, _⟩ :=
    @requests_stay_on_base Unit ⟨"http://u@host/api?q", "..", false⟩ _ parsed web
  obtain ⟨url, asked, differs, _⟩ := confined ["content", "//evil/..?x#", "tasks"]
  exact ⟨_, url, parsed, web, rfl, asked, differs.host, differs.query,
    begins.mpr (by decide) _ url asked⟩

/-- The first of two empty segments of a base is lost: a job on a server whose path is two slashes
is asked for at a path of one.
-/
theorem address_loses_empty_segment
    : ∃ base url, Url.parse "http://host//?q" = .ok base ∧ base.isWeb = true
      ∧ Url.ground base.segments = [[]]
      ∧ Client.address ⟨"http://host//?q", "default", false⟩ ["content", "c", "tasks"] = .ok url
      ∧ url.text = "http://host/namespaces/default/content/c/tasks?q"
      ∧ ¬ Url.ground base.segments <+: url.segments := by
  have parsed : Url.parse "http://host//?q"
      = .ok ⟨"http".toList, [], [], some "host".toList, none, .segments [[], []],
          some "q".toList, none⟩ := by
    decide +kernel
  have asked : Client.address ⟨"http://host//?q", "default", false⟩ ["content", "c", "tasks"]
      = .ok ⟨"http".toList, [], [], some "host".toList, none,
          .segments ["namespaces".toList, "default".toList, "content".toList, "c".toList,
            "tasks".toList],
          some "q".toList, none⟩ := by
    decide +kernel
  exact ⟨_, _, parsed, by decide, rfl, asked, by decide +kernel, by decide⟩

end Client
end DocPipeline
