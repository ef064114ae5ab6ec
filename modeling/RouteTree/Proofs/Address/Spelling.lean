import RouteTree.Proofs.Link.Mounting
import RouteTree.Proofs.Query.Undeclared
import RouteTree.Proofs.Selection.Dispatching

/-! # Spellings of an address

The same address can be written with longer or shorter runs of slashes and with any fragment. A run
makes empty parts, which are dropped before anything is decoded. What is left of the slashes is
whether there is one at the start, which a mount asks for, and whether there is one at the end, and
neither depends on the length of a run.

Parts are decoded one by one after the path has been split at its slashes. A slash that is encoded
in a part is therefore a character of its segment.
-/

namespace RouteTree

/-- A text can be cut in front of the first mark, or at its end. -/
theorem Text.exists_cut (mark : Char) (text : List Char) :
    ∃ head rest, text = head ++ rest ∧ mark ∉ head ∧ ∀ char ∈ rest.head?, char = mark := by
  refine ⟨before mark text, text.dropWhile (· != mark), List.takeWhile_append_dropWhile.symm,
    notMem_before mark text, fun char first => ?_⟩
  have stops := List.head?_dropWhile_not (· != mark) text
  rw [Option.mem_def.mp first] at stops
  simpa using stops

namespace Address

open List (replicate)

variable {config : Config} {path path' query : List Char} {text text' : String}

/-! ## Runs of slashes -/

theorem parts_replicate_append (n : Nat) (path : List Char) :
    parts (replicate n '/' ++ path) = parts path := by
  induction n with
  | zero => rfl
  | succ n ih => rw [List.replicate_succ, List.cons_append, parts_cons_slash, ih]

/-- The parts on both sides of a run are found whatever its length is. -/
theorem parts_run (before after : List Char) (n : Nat) :
    parts (before ++ replicate (n + 1) '/' ++ after) = parts before ++ parts after := by
  rw [List.replicate_succ, List.append_assoc, List.cons_append, parts_append_slash_cons,
    parts_replicate_append]

/-- A path before and after runs of slashes in it get other positive lengths. -/
inductive Respelled : List Char → List Char → Prop
  | same (path : List Char) : Respelled path path
  | run {before after path : List Char} (m n : Nat)
      (onward : Respelled (before ++ replicate (n + 1) '/' ++ after) path) :
      Respelled (before ++ replicate (m + 1) '/' ++ after) path

/-- What a reader sees of the slashes of a path: the parts between them, whether one ends the path,
and whether the path may follow a mount. -/
structure Alike (path path' : List Char) : Prop where
  parts : parts path' = parts path
  last : path'.getLast? = path.getLast?
  follows : path'.head?.all (· == '/') = path.head?.all (· == '/')

/-- The length of one run does not count. -/
theorem alike_run (before after : List Char) (m n : Nat) :
    Alike (before ++ replicate (m + 1) '/' ++ after)
      (before ++ replicate (n + 1) '/' ++ after) where
  parts := by rw [parts_run, parts_run]
  last := by simp [List.getLast?_append, List.getLast?_replicate]
  follows := by simp [List.head?_append, List.head?_replicate]

theorem Respelled.alike (respelled : Respelled path path') : Alike path path' := by
  induction respelled with
  | same path => exact ⟨rfl, rfl, rfl⟩
  | @run before after path m n _ ih =>
    have step := alike_run before after m n
    exact ⟨ih.parts.trans step.parts, ih.last.trans step.last, ih.follows.trans step.follows⟩

/-- Paths that look alike lie below the same mounts and are read alike there. -/
theorem Alike.read_eq (alike : Alike path path') (config : Config) (query : List Char) :
    (below? config.mount.toList (config.mount.toList ++ path')).map
        (fun inside => ofParts config inside query) =
      (below? config.mount.toList (config.mount.toList ++ path)).map
        (fun inside => ofParts config inside query) := by
  have read : ofParts config path' query = ofParts config path query := by
    rw [ofParts, ofParts, alike.parts, alike.last]
  by_cases unmounted : config.mount.toList = []
  · simp [unmounted, below?, read]
  · rw [below?_mount unmounted, below?_mount unmounted, alike.follows]
    split
    · exact congrArg some read
    · rfl

/-- Slashes at the start of a path are not read where no mount asks for one. -/
theorem ofParts_replicate (config : Config) (n : Nat) (path query : List Char) :
    ofParts config (replicate n '/' ++ path) query = ofParts config path query := by
  have slash : (!(parts path).isEmpty && (replicate n '/' ++ path).getLast? == some '/') =
      (!(parts path).isEmpty && path.getLast? == some '/') := by
    cases path with
    | nil => rfl
    | cons first others => rw [List.getLast?_append_of_ne_nil _ (List.cons_ne_nil _ _)]
  rw [ofParts, ofParts, parts_replicate_append, slash]

/-- Two texts that spell one address below a mount. -/
inductive Respells (config : Config) : String → String → Prop
  /-- Behind the mount, runs of slashes get other lengths. The fragments are free. -/
  | runs {inside inside' query : List Char} {text text' : String}
      (respelled : Respelled inside inside')
      (written : Written (config.mount.toList ++ inside) query text)
      (written' : Written (config.mount.toList ++ inside') query text') :
      Respells config text text'
  /-- Without a mount, the path starts with other slashes or with none. -/
  | leading {path query : List Char} {text text' : String} (unmounted : config.mount = "")
      (m n : Nat) (written : Written (replicate m '/' ++ path) query text)
      (written' : Written (replicate n '/' ++ path) query text') : Respells config text text'

theorem Respells.parse?_eq (respells : Respells config text text') :
    parse? config text' = parse? config text := by
  cases respells with
  | runs respelled written written' =>
    rw [written.parse?_eq, written'.parse?_eq]
    exact respelled.alike.read_eq config _
  | leading unmounted m n written written' =>
    have anywhere : ∀ path, below? config.mount.toList path = some path := by
      simp [unmounted, below?]
    rw [written.parse?_eq, written'.parse?_eq, anywhere, anywhere, Option.map_some, Option.map_some,
      ofParts_replicate, ofParts_replicate]

/-! ## Parts and segments -/

/-- Every text is written with some path part, query text and fragment. -/
theorem exists_written (text : String) : ∃ path query, Written path query text := by
  obtain ⟨kept, fragment, split, clean, ends⟩ := Text.exists_cut '#' text.toList
  obtain ⟨path, rest, rfl, whole, marked⟩ := Text.exists_cut '?' kept
  have spelled : text = String.ofList (path ++ rest ++ fragment) := by
    rw [← split, String.ofList_toList]
  have cleanPath : '#' ∉ path := fun member => clean (List.mem_append_left rest member)
  cases rest with
  | nil =>
    rw [List.append_nil] at spelled
    exact ⟨path, [], spelled ▸ .bare whole cleanPath ends⟩
  | cons mark query =>
    obtain rfl := marked mark rfl
    have cleanQuery : '#' ∉ query := fun member => clean (by simp [member])
    exact ⟨path, query, spelled ▸ .queried whole cleanPath cleanQuery ends⟩

/-- A path without slashes is one part. -/
theorem parts_of_notMem {part : List Char} (present : part ≠ []) (whole : '/' ∉ part) :
    parts part = [part] := by
  rw [parts, List.splitOn_eq_singleton whole]
  simpa using present

/-- A piece without slashes stands in one part, and the other parts do not depend on it. -/
theorem exists_parts_of_piece (before after : List Char) :
    ∃ front left right back, ∀ piece, piece ≠ [] → '/' ∉ piece →
      parts (before ++ piece ++ after) = front ++ (left ++ piece ++ right) :: back := by
  induction before using Text.cut_induction '/' with
  | whole before clean =>
    obtain ⟨right, rest, rfl, clean', marked⟩ := Text.exists_cut '/' after
    refine ⟨[], before, right, parts rest, fun piece present whole => ?_⟩
    have first : parts (before ++ piece ++ right) = [before ++ piece ++ right] := by
      apply parts_of_notMem
      · simp [present]
      · simp [clean, whole, clean']
    rw [← List.append_assoc]
    cases rest with
    | nil => exact (congrArg parts (List.append_nil _)).trans first
    | cons mark rest =>
      obtain rfl := marked mark rfl
      rw [parts_append_slash_cons, first, parts_cons_slash]
      rfl
  | cut head rest _ ih =>
    obtain ⟨front, left, right, back, found⟩ := ih
    refine ⟨parts head ++ front, left, right, back, fun piece present whole => ?_⟩
    have onward := found piece present whole
    simp only [List.append_assoc, List.cons_append] at onward ⊢
    rw [parts_append_slash_cons, onward]

/-- What is written behind the mount is what an address is read from. -/
theorem ofParts_of_written {inside : List Char} {address : Address}
    (written : Written (config.mount.toList ++ inside) query text)
    (parsed : parse? config text = some address) : address = ofParts config inside query := by
  rw [written.parse?_eq] at parsed
  obtain ⟨rest, below, rfl⟩ := Option.map_eq_some_iff.mp parsed
  rw [List.append_cancel_left (append_of_below? below)]

/-- A text that gives an address starts with the mount. -/
theorem exists_inside {address : Address} (parsed : parse? config text = some address) :
    ∃ inside query, Written (config.mount.toList ++ inside) query text := by
  obtain ⟨path, query, written⟩ := exists_written text
  rw [written.parse?_eq] at parsed
  obtain ⟨inside, below, _⟩ := Option.map_eq_some_iff.mp parsed
  refine ⟨inside, query, ?_⟩
  rwa [append_of_below? below]

end Address

namespace Hierarchy

variable {hierarchy : Hierarchy} {router : RouterId} {config : Config} {text text' : String}

/-- Texts with the same address are matched alike. -/
theorem selectPath_of_parse?_eq (given : hierarchy.config? router = some config)
    (same : Address.parse? config text' = Address.parse? config text) (context : Value) :
    (hierarchy.selectPath router context text').calls =
        (hierarchy.selectPath router context text).calls ∧
      (hierarchy.selectPath router context text').result =
        (hierarchy.selectPath router context text).result := by
  rw [← config_of_config? given] at same
  cases parsed : Address.parse? ((hierarchy.router? router).elim .unmounted Router.config) text with
  | none =>
    obtain ⟨calls, result⟩ := selectPath_of_outside context parsed
    obtain ⟨calls', result'⟩ := selectPath_of_outside context (same.trans parsed)
    exact ⟨calls'.trans calls.symm, result'.trans result.symm⟩
  | some address =>
    obtain ⟨calls, result⟩ := selectPath_of_address context parsed
    obtain ⟨calls', result'⟩ := selectPath_of_address context (same.trans parsed)
    exact ⟨calls'.trans calls.symm, result'.trans result.symm⟩

end Hierarchy

namespace Config

open Address

/-- What it means that only the slashes between the parts of a path count. -/
structure IgnoresSpelling (config : Config) : Prop where
  /-- All spellings of an address are read alike, or all of them lie outside the mount. -/
  parse?_eq : ∀ text text', Respells config text text' → parse? config text' = parse? config text
  /-- A router calls the same and finds the same for them. -/
  selectPath_eq : ∀ (hierarchy : Hierarchy) router context text text',
    hierarchy.config? router = some config → Respells config text text' →
    (hierarchy.selectPath router context text').calls =
        (hierarchy.selectPath router context text).calls ∧
      (hierarchy.selectPath router context text').result =
        (hierarchy.selectPath router context text).result
  dispatch_eq : ∀ (hierarchy : Hierarchy) router context text text',
    hierarchy.config? router = some config → Respells config text text' →
    (hierarchy.dispatch router context text').calls =
        (hierarchy.dispatch router context text).calls ∧
      (hierarchy.dispatch router context text').result =
        (hierarchy.dispatch router context text).result
  /-- No segment is empty, and there are as many of them as there are parts that are not empty
  between the slashes behind the mount. -/
  segments : ∀ text address, parse? config text = some address →
    (∀ segment ∈ address.segments, segment ≠ "") ∧
      ∃ inside query, Written (config.mount.toList ++ inside) query text ∧
        address.segments.length = (inside.splitOn '/').countP (· ≠ [])
  /-- A piece that holds no slash, such as one with an encoded slash, is read in one segment. The
  segments on both sides of it stay what they are when it is replaced. -/
  piece : ∀ before after query, ∃ front back, ∀ piece text address, piece ≠ [] → '/' ∉ piece →
    Written (config.mount.toList ++ (before ++ piece ++ after)) query text →
    parse? config text = some address →
    ∃ segment, address.segments = front ++ segment :: back

/-- Neither the lengths of runs of slashes nor fragments count, and every part between slashes that
is not empty gives exactly one segment. -/
theorem spelling_is_ignored (config : Config) : config.IgnoresSpelling where
  parse?_eq _ _ respells := respells.parse?_eq
  selectPath_eq _ _ context _ _ given respells :=
    Hierarchy.selectPath_of_parse?_eq given respells.parse?_eq context
  dispatch_eq hierarchy router context text text' given respells := by
    obtain ⟨calls, result⟩ := Hierarchy.selectPath_of_parse?_eq given respells.parse?_eq context
    exact Hierarchy.dispatch_congr calls result
  segments text address parsed := by
    refine ⟨ne_empty_of_mem_segments parsed, ?_⟩
    obtain ⟨inside, query, written⟩ := exists_inside parsed
    refine ⟨inside, query, written, ?_⟩
    rw [ofParts_of_written written parsed, ofParts, List.length_map, parts,
      List.countP_eq_length_filter]
    refine congrArg List.length (List.filter_congr fun part _ => ?_)
    cases part <;> simp
  piece before after query := by
    obtain ⟨front, left, right, back, found⟩ := exists_parts_of_piece before after
    refine ⟨front.map (segmentOf config), back.map (segmentOf config), ?_⟩
    intro piece text address present whole written parsed
    refine ⟨segmentOf config (left ++ piece ++ right), ?_⟩
    rw [ofParts_of_written written parsed, ofParts, found piece present whole, List.map_append,
      List.map_cons]

open Hierarchy in
/-- In the shop, a visitor may write more slashes and a fragment. The slash that is encoded in the
second part is a character of the kind. -/
theorem spelling_is_ignored_shop :
    Respells shopConfig "/shop/find/a%2Fb/7/?q=x" "/shop//find/a%2Fb/7///?q=x#top" ∧
      parse? shopConfig "/shop/find/a%2Fb/7/?q=x" =
        some ⟨["find", "a/b", "7"], true, .ofText "q=x"⟩ ∧
      parse? shopConfig "/shop//find/a%2Fb/7///?q=x#top" =
        some ⟨["find", "a/b", "7"], true, .ofText "q=x"⟩ ∧
      ((build shopEdits).selectPath ⟨0⟩ .null "/shop//find/a%2Fb/7///?q=x#top").result =
        ((build shopEdits).selectPath ⟨0⟩ .null "/shop/find/a%2Fb/7/?q=x").result ∧
      ∃ inside query, Written ("/shop".toList ++ inside) query "/shop/find/a%2Fb/7/?q=x" ∧
        3 = (inside.splitOn '/').countP (· ≠ []) := by
  have given : (build shopEdits).config? ⟨0⟩ = some shopConfig := by
    rw [build_shopEdits]
    rfl
  have ignores := spelling_is_ignored shopConfig
  have short : Written ("/shop".toList ++ "/find/a%2Fb/7/".toList) "q=x".toList
      "/shop/find/a%2Fb/7/?q=x" :=
    @Written.queried _ _ [] (by decide) (by decide) (by decide) (by simp)
  have long : Written ("/shop".toList ++ "//find/a%2Fb/7///".toList) "q=x".toList
      "/shop//find/a%2Fb/7///?q=x#top" :=
    @Written.queried _ _ "#top".toList (by decide) (by decide) (by decide) (by simp)
  have respelled : Respelled "/find/a%2Fb/7/".toList "//find/a%2Fb/7///".toList :=
    @Respelled.run [] "find/a%2Fb/7/".toList _ 0 1
      (@Respelled.run "//find/a%2Fb/7".toList [] _ 0 2 (.same _))
  have respells : Respells shopConfig "/shop/find/a%2Fb/7/?q=x" "/shop//find/a%2Fb/7///?q=x#top" :=
    .runs respelled short long
  have read : parse? shopConfig "/shop/find/a%2Fb/7/?q=x" =
      some ⟨["find", "a/b", "7"], true, .ofText "q=x"⟩ := by
    decide
  obtain ⟨_, counted⟩ := ignores.segments _ _ read
  exact ⟨respells, read, (ignores.parse?_eq _ _ respells).trans read,
    (ignores.selectPath_eq _ _ .null _ _ given respells).2, counted⟩

end Config

end RouteTree
