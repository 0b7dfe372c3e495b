import DocPipeline.Proofs.Except
import DocPipeline.Proofs.Url.Route
import DocPipeline.Service.Client
import Mathlib.Control.Monad.Basic

/-! Addresses of a client on a server of the web: what names do to the address that is asked, and
for which names that address leads where they say.
-/

namespace DocPipeline

namespace Url

-----------------------------------------------------------------------------------------
-- Addresses of servers
-----------------------------------------------------------------------------------------

/-- An address that names a host has a path of segments. -/
structure IsHosted (url : Url) : Prop where
  host : url.host.isSome = true
  segmented : ∃ names, url.path = .segments names

/-- The path behind an authority has segments, also when it is empty. -/
theorem pathOf_segmented (kind : Kind) (cs : List Char)
    : ∃ names, pathOf kind cs = .segments names := by
  unfold pathOf
  split
  · split <;> exact ⟨_, rfl⟩
  · split <;> exact ⟨_, rfl⟩

/-- What follows two slashes names a host. -/
theorem withAuthority_isHosted {scheme cs : List Char} {url : Url}
    (parsed : withAuthority scheme cs = .ok url) : IsHosted url := by
  obtain ⟨_, _, rest⟩ := Except.exists_of_bind_eq_ok parsed
  cases rest
  exact ⟨rfl, pathOf_segmented _ _⟩

/-- The scheme of an address is the one that stands before its authority. -/
theorem withAuthority_scheme {scheme cs : List Char} {url : Url}
    (parsed : withAuthority scheme cs = .ok url) : url.scheme = scheme := by
  obtain ⟨_, _, rest⟩ := Except.exists_of_bind_eq_ok parsed
  cases rest
  rfl

/-- The address of a file has the scheme of files. -/
theorem file_scheme {cs : List Char} {url : Url} (parsed : file cs = .ok url)
    : url.scheme = "file".toList := by
  unfold file at parsed
  dsimp only at parsed
  split at parsed
  · split at parsed
    · obtain ⟨_, _, rest⟩ := Except.exists_of_bind_eq_ok parsed
      cases rest
      rfl
    · cases parsed
      rfl
  · cases parsed
    rfl

/-- The kind of a parsed address is the kind of its scheme, whichever way is taken. -/
theorem afterScheme_kind {scheme cs : List Char} {url : Url}
    (parsed : afterScheme scheme cs = .ok url) : url.kind = kindOf scheme := by
  unfold kind
  cases known : kindOf scheme with
  | server =>
      simp only [afterScheme, known] at parsed
      rw [withAuthority_scheme parsed, known]
  | file =>
      simp only [afterScheme, known] at parsed
      rw [file_scheme parsed]
      decide +kernel
  | other =>
      simp only [afterScheme, known] at parsed
      split at parsed
      · rw [withAuthority_scheme parsed, known]
      · cases parsed
        exact known
      · cases parsed
        exact known

/-- An address on the web is one of a server. -/
theorem kind_of_isWeb {url : Url} (web : url.isWeb = true) : url.kind = .server := by
  unfold isWeb at web
  rw [Bool.or_eq_true, beq_iff_eq, beq_iff_eq] at web
  unfold kind kindOf
  rcases web with same | same <;> rw [same, if_pos (by decide)]

/-- A parsed address on the web names a host, since only schemes of servers are on the web. -/
theorem parse_isHosted {s : String} {url : Url} (parsed : parse s = .ok url)
    (web : url.isWeb = true) : IsHosted url := by
  unfold parse at parsed
  split at parsed
  next scheme rest _ =>
    have server : kindOf scheme = .server :=
      (afterScheme_kind parsed).symm.trans (kind_of_isWeb web)
    unfold afterScheme at parsed
    rw [server] at parsed
    exact withAuthority_isHosted parsed
  next => cases parsed

end Url

namespace Client

-----------------------------------------------------------------------------------------
-- What names do to an address
-----------------------------------------------------------------------------------------

/-- The address goes from its base through the word for spaces to one segment for each name, and
each of these segments stands for its name.
-/
def FollowsNames (base url : Url) (names : List String) : Prop :=
  ∃ route, url.segments = Url.ground base.segments ++ "namespaces".toList :: route
    ∧ route.map Url.decode = names.map Text.Utf8.encode

/-- What it takes for an address to follow names: names that it keeps, and a base that does not
consist of two empty segments, of which only one would be left.
-/
structure CanFollow (base : Url) (names : List String) : Prop where
  groundStays : base.segments ≠ [[], []]
  plain : ∀ name ∈ names, Url.IsSegmentName name

/-- The segments up to the word for spaces. -/
def front (base : Url) : List (List Char) :=
  (if base.segments = [[], []] then [] else Url.ground base.segments)
    ++ [Url.segmentOf "namespaces"]

/-- The word for spaces is a name that an address keeps, by looking at its letters. -/
theorem isSegmentName_namespaces : Url.IsSegmentName "namespaces" where
  notHere := by decide
  notAbove := by decide
  nothingIgnored := by simp [Url.isIgnored]

/-- The word for spaces needs no escapes. -/
theorem segmentOf_namespaces : Url.segmentOf "namespaces" = "namespaces".toList := by
  simp [Url.segmentOf, Url.encode, Url.encodeChar, Url.inWebSegment, Url.inSegment, Url.inPath,
    Url.inFragment, Url.isControl]

/-- The word for spaces is always there. -/
theorem front_ne_nil (base : Url) : front base ≠ [] :=
  List.append_ne_nil_of_right_ne_nil _ (List.cons_ne_nil _ _)

/-- The word for spaces is not empty. -/
theorem front_ne_empty (base : Url) : front base ≠ [[]] := by
  intro same
  have last : (front base).getLast? = some (Url.segmentOf "namespaces") :=
    List.getLast?_concat
  rw [same, segmentOf_namespaces] at last
  exact absurd last (by decide +kernel)

variable {client : Client} {base : Url}

/-- The address on a server of the web is the base with other segments. -/
theorem address_of_web (parsed : Url.parse client.base = .ok base) (web : base.isWeb = true)
    (names : List String)
    : client.address names
      = .ok { base with
          path := .segments (Url.withNames (front base) (client.space :: names)) } := by
  obtain ⟨segments, path⟩ := (Url.parse_isHosted parsed web).segmented
  have carries : base.carriesPath = true := by
    unfold Url.carriesPath
    rw [path]
  unfold address
  rw [parsed]
  change (if base.carriesPath = true then _ else _) = _
  rw [if_pos carries, Url.extend_of_server (Url.kind_of_isWeb web)]
  change _ = Except.ok { base with path := .segments (Url.withNames (_ ++ [_]) _) }
  rw [← Url.addName_withoutEmptyEnd base.segments isSegmentName_namespaces]
  rfl

/-- An address follows the names exactly if it can: a segment for each name leaves no name out, and
a segment that stands for a name leaves nothing of it out.
-/
theorem followsNames_iff (base : Url) (names : List String)
    : FollowsNames base { base with path := .segments (Url.withNames (front base) names) } names
      ↔ CanFollow base names := by
  constructor
  · rintro ⟨route, behind, honest⟩
    change Url.withNames (front base) names = _ at behind
    obtain ⟨most, grown⟩ := Url.withNames_grows (front base) names
    have count : route.length = names.length := by
      simpa using congrArg List.length honest
    have total : (Url.withNames (front base) names).length
        = (Url.ground base.segments).length + 1 + names.length := by
      rw [behind, List.length_append, List.length_cons, count]
      omega
    have groundStays : base.segments ≠ [[], []] := by
      intro double
      have short : (front base).length = 1 := by
        rw [front, if_pos double]
        rfl
      have kept : (Url.ground base.segments).length = 1 := by
        rw [double]
        rfl
      omega
    have whole : front base = Url.ground base.segments ++ ["namespaces".toList] := by
      rw [front, if_neg groundStays, segmentOf_namespaces]
    obtain ⟨others, same, kept⟩ := grown (by rw [total, whole, List.length_append]; rfl)
    rw [behind, whole, List.append_assoc] at same
    have routes : route = others := (List.cons.inj (List.append_cancel_left same)).2
    exact ⟨groundStays, kept (routes ▸ honest)⟩
  · intro able
    refine ⟨names.map Url.segmentOf, ?_, ?_⟩
    · change Url.withNames (front base) names = _
      rw [Url.withNames_of_plain able.plain (front_ne_nil base) (front_ne_empty base), front,
        if_neg able.groundStays, segmentOf_namespaces, List.append_assoc]
      rfl
    · rw [List.map_map]
      exact List.map_congr_left fun name _ => Url.decode_segmentOf name

/-- Names that addresses keep are told apart by the addresses with these names, since what stands
before and behind the names is the same.
-/
theorem names_of_text {names others : List String} (hosted : base.IsHosted)
    (plain : ∀ name ∈ names, Url.IsSegmentName name)
    (plainToo : ∀ name ∈ others, Url.IsSegmentName name)
    (same :
      Url.text { base with path := .segments (Url.withNames (front base) names) }
        = Url.text { base with path := .segments (Url.withNames (front base) others) })
    : names = others := by
  have paths := Url.path_text_of_text hosted.host same
  rw [Url.withNames_of_plain plain (front_ne_nil base) (front_ne_empty base),
    Url.withNames_of_plain plainToo (front_ne_nil base) (front_ne_empty base)] at paths
  unfold Url.Path.text at paths
  dsimp only at paths
  rw [List.flatMap_append, List.flatMap_append] at paths
  have routes : names.map Url.segmentOf = others.map Url.segmentOf :=
    Url.path_text_inj
      (List.forall_mem_map.mpr fun name _ => Url.slash_not_mem_segmentOf name)
      (List.forall_mem_map.mpr fun name _ => Url.slash_not_mem_segmentOf name)
      (List.append_cancel_left paths)
  exact (List.map_inj_right fun _ _ => Url.segmentOf_inj).mp routes

-----------------------------------------------------------------------------------------
-- Addresses and names
-----------------------------------------------------------------------------------------

/-- On every server of the web there is an address for all names. It follows them exactly if none of
them is one or two points or holds a tab or a line end, and if the base does not consist of two
empty segments. Then the number of its segments depends only on that of the names. Addresses of two
clients of that server are different whenever such names are.
-/
theorem address_follows_names_iff (parsed : Url.parse client.base = .ok base)
    (web : base.isWeb = true) (names : List String)
    : ∃ url, client.address names = .ok url
      ∧ (FollowsNames base url (client.space :: names)
        ↔ CanFollow base (client.space :: names))
      ∧ (CanFollow base (client.space :: names) →
        url.segments.length = (Url.ground base.segments).length + 2 + names.length)
      ∧ ∀ (other : Client) (others : List String) (second : Url), other.base = client.base →
        (∀ name ∈ client.space :: names, Url.IsSegmentName name) →
        (∀ name ∈ other.space :: others, Url.IsSegmentName name) →
        other.address others = .ok second → second.text = url.text →
        other.space :: others = client.space :: names := by
  refine ⟨_, address_of_web parsed web names, followsNames_iff base _, fun able => ?_, ?_⟩
  · obtain ⟨route, behind, honest⟩ := (followsNames_iff base _).mpr able
    have count : route.length = names.length + 1 := by
      simpa using congrArg List.length honest
    rw [behind, List.length_append, List.length_cons, count]
    omega
  · intro other others second sameBase plain plainToo asked same
    rw [address_of_web (sameBase ▸ parsed) web others] at asked
    cases asked
    exact names_of_text (Url.parse_isHosted parsed web) plainToo plain same

/-- The address of the tasks of a content follows its name, slash and space included. -/
theorem address_follows_names_of_slash
    : ∃ base url, Url.parse "http://host:8900" = .ok base ∧ base.isWeb = true
      ∧ Client.address ⟨"http://host:8900", "default", false⟩ ["content", "a/b c", "tasks"]
        = .ok url
      ∧ FollowsNames base url ["default", "content", "a/b c", "tasks"] := by
  have parsed : Url.parse "http://host:8900"
      = .ok ⟨"http".toList, [], [], some "host".toList, some 8900, .segments [[]], none, none⟩ := by
    decide +kernel
  have web : Url.isWeb
        ⟨"http".toList, [], [], some "host".toList, some 8900, .segments [[]], none, none⟩
      = true := by
    decide
  have kept : ∀ name ∈ ["default", "content", "a/b c", "tasks"], Url.IsSegmentName name := by
    simp only [List.forall_mem_cons]
    refine ⟨?_, ?_, ?_, ?_, by simp⟩ <;>
      exact ⟨by decide, by decide, by simp [Url.isIgnored]⟩
  obtain ⟨url, asked, follows, _⟩ :=
    @address_follows_names_iff ⟨"http://host:8900", "default", false⟩ _ parsed web
      ["content", "a/b c", "tasks"]
  exact ⟨_, url, parsed, web, asked, follows.mpr ⟨by decide, kept⟩⟩

/-- A content whose name holds a tab is asked for at the address of the content without the tab. -/
theorem address_drops_tab
    : Client.address ⟨"http://host:8900", "default", false⟩ ["content", "a\tb", "tasks"]
      = Client.address ⟨"http://host:8900", "default", false⟩ ["content", "ab", "tasks"] := by
  decide +kernel

end Client
end DocPipeline
