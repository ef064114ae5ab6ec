import RouteTree.Proofs.Link.Canonical

/-! # Links that are read without decoding

A link is always percent-encoded, while a router that does not decode takes the segments of an
address as they are written. To such a router a link to what it selected is another address: each
segment is encoded once more. The segments are the ones that were selected just when none of them
holds a reserved character.
-/

namespace RouteTree

/-- A configuration with which a router reads its own links part by part, but as they are
written. -/
structure Config.ReadsEncoded (config : Config) : Prop where
  undecoded : config.decodesSegments = false
  noQuery : '?' ∉ config.mount.toList
  noFragment : '#' ∉ config.mount.toList

open Text.Percent (encoded isUnreserved)

/-- Without decoding, the segments of a link are read in their written forms. -/
theorem Link.map_segmentOf_writtenSegments {config : Config}
    (undecoded : config.decodesSegments = false) (link : Link) :
    link.writtenSegments.map (Address.segmentOf config) = link.segments.map encoded := by
  rw [writtenSegments, List.map_map]
  refine List.map_congr_left fun segment _ => ?_
  rw [Function.comp_apply, Address.segmentOf, undecoded]
  rfl

namespace Hierarchy

variable {router : RouterId} {config : Config} {first : Selection} {others : List Selection}
  {arguments : Entries}

/-- A router that does not decode reads the link to the last route of a chain that ends an address,
made from what the chain captured, with every segment in its written form. The segments are those
that were selected just when they hold no reserved character. -/
theorem parse?_link_undecoded {edits : List Edit} {context : Value} {path : String}
    (configured : (build edits).config? router = some config) (reads : config.ReadsEncoded)
    (selected : ((build edits).selectPath router context path).result = .ok (.chain first others))
    (ends : ((first :: others).getLast (List.cons_ne_nil _ _)).kind = .index)
    (given : ∀ selection ∈ first :: others, selection.IsGivenBy arguments) :
    ∃ text original address,
      (build edits).link router ((first :: others).getLast (List.cons_ne_nil _ _)).route arguments =
        .ok text ∧
      Address.parse? config path = some original ∧ Address.parse? config text = some address ∧
      address.segments = original.segments.map encoded ∧
      (address.segments = original.segments ↔
        ∀ segment ∈ original.segments, ∀ char ∈ segment.toList, isUnreserved char = true) := by
  have constructed := constructed_build edits
  obtain ⟨original, _, id, atEnd, parsed, _, linked, filled, segments, _⟩ :=
    link_of_captured configured selected ends given
  rw [← atEnd]
  have read := Link.parse?_text_eq (ne_empty_of_mem_filledLink constructed filled) config
    reads.noQuery reads.noFragment
  have written : ((build edits).filledLink id arguments).writtenSegments.map
      (Address.segmentOf config) = original.segments.map encoded := by
    rw [Link.map_segmentOf_writtenSegments reads.undecoded, ← segments]
    rfl
  refine ⟨_, original, _, linked, parsed, read, written, ?_⟩
  rw [written]
  exact Text.Percent.map_encoded_eq_self_iff

/-! ### A note with a blank in its name -/

def noteRoute : Route :=
  ⟨some ⟨[.parameter "name"], ["name"], [], true, false⟩, none, none, none, .null, true⟩

def noteEdits : List Edit :=
  [.router "" false,
    .route ⟨some "/\x7bname\x7d", none, none, none, .null, true⟩,
    .append (.router ⟨0⟩) [⟨0⟩]]

def noteHierarchy : Hierarchy :=
  { nodes := #[⟨noteRoute, .root ⟨0⟩, []⟩], routers := #[⟨⟨"", false⟩, [⟨0⟩]⟩] }

def noteConfig : Config :=
  ⟨"", false⟩

/-- The name is captured as it is written. -/
def noteSelection : Selection :=
  noteRoute.selection ⟨0⟩ (.ofAddress .null ⟨["a%20b"], false, .ofText ""⟩) ["a%20b"]
    (.dict [("name", .text "a%20b")]) .index

def noteArguments : Entries :=
  [("name", .text "a%20b")]

theorem build_noteEdits : build noteEdits = noteHierarchy := by
  have note : Pattern.parse "/\x7bname\x7d" =
      .ok ⟨[.parameter "name"], ["name"], [], true, false⟩ :=
    Pattern.parse_eq_ok_iff.mpr (by decide)
  simp only [build, editAll, noteEdits, List.foldl_cons, List.foldl_nil, edit, Route.ofSpec,
    RouteSpec.pattern, note]
  rfl

theorem config?_note : (build noteEdits).config? ⟨0⟩ = some noteConfig := by
  rw [build_noteEdits]
  rfl

theorem selectPath_note :
    ((build noteEdits).selectPath ⟨0⟩ .null "/a%20b").result = .ok (.chain noteSelection []) := by
  rw [build_noteEdits]
  rfl

theorem isGivenBy_noteArguments :
    ∀ selection ∈ [noteSelection], selection.IsGivenBy noteArguments := by
  intro selection member pattern present entry captured
  obtain rfl := List.mem_singleton.mp member
  obtain rfl := Option.some.inj present
  obtain rfl : entry = ("name", "a%20b") := List.mem_singleton.mp captured
  rfl

theorem link_note : (build noteEdits).link ⟨0⟩ ⟨0⟩ noteArguments = .ok "/a%2520b" := by
  rw [build_noteEdits]
  rfl

/-- The link to the note is read with the name encoded twice. -/
theorem parse?_link_undecoded_note :
    (build noteEdits).config? ⟨0⟩ = some noteConfig ∧ noteConfig.ReadsEncoded ∧
      ((build noteEdits).selectPath ⟨0⟩ .null "/a%20b").result = .ok (.chain noteSelection []) ∧
      noteSelection.kind = .index ∧
      (∀ selection ∈ [noteSelection], selection.IsGivenBy noteArguments) ∧
      ∃ text original address,
        (build noteEdits).link ⟨0⟩ noteSelection.route noteArguments = .ok text ∧
        Address.parse? noteConfig "/a%20b" = some original ∧
        Address.parse? noteConfig text = some address ∧
        address.segments = original.segments.map encoded ∧
        (address.segments = original.segments ↔
          ∀ segment ∈ original.segments, ∀ char ∈ segment.toList, isUnreserved char = true) := by
  have reads : noteConfig.ReadsEncoded := ⟨rfl, by decide, by decide⟩
  exact ⟨config?_note, reads, selectPath_note, rfl, isGivenBy_noteArguments,
    parse?_link_undecoded config?_note reads selectPath_note rfl isGivenBy_noteArguments⟩

/-- A link from captured values need not lead back to the segments that were selected. -/
theorem undecoded_links_drift :
    ¬ ∀ (edits : List Edit) (router : RouterId) (config : Config) (context : Value) (path : String)
      (first : Selection) (others : List Selection) (arguments : Entries),
      (build edits).config? router = some config → config.ReadsEncoded →
      ((build edits).selectPath router context path).result = .ok (.chain first others) →
      ((first :: others).getLast (List.cons_ne_nil _ _)).kind = .index →
      (∀ selection ∈ first :: others, selection.IsGivenBy arguments) →
      ∃ text original address,
        (build edits).link router ((first :: others).getLast (List.cons_ne_nil _ _)).route
          arguments = .ok text ∧
        Address.parse? config path = some original ∧ Address.parse? config text = some address ∧
        address.segments = original.segments := by
  intro faithful
  obtain ⟨text, original, address, linked, parsed, parsed', same⟩ :=
    faithful noteEdits ⟨0⟩ noteConfig .null "/a%20b" noteSelection [] noteArguments config?_note
      ⟨rfl, by decide, by decide⟩ selectPath_note rfl isGivenBy_noteArguments
  obtain rfl : "/a%2520b" = text := Except.ok.inj (link_note.symm.trans linked)
  have selected : Address.parse? noteConfig "/a%20b" =
      some ⟨["a%20b"], false, .ofText ""⟩ := by
    decide
  have linkedTo : Address.parse? noteConfig "/a%2520b" =
      some ⟨["a%2520b"], false, .ofText ""⟩ := by
    decide
  obtain rfl := Option.some.inj (selected.symm.trans parsed)
  obtain rfl := Option.some.inj (linkedTo.symm.trans parsed')
  exact absurd same (by decide)

end Hierarchy

end RouteTree
