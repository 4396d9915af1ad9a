import Duet.Lib.Fallible
import Duet.Lib.PrefixOrder
import Duet.Sync.PathBytes
import Mathlib.Data.List.TakeWhile

/-!
# Canonical paths

The bytes of an accepted path are its names with single slashes between them. On such paths the
bytes, the components and the names are three spellings of one list, so that equality, prefixes and
order mean the same in each of them.
-/

namespace Duet

open Lib

namespace PathBuf

/-- A name of an entry: not empty, not an alias, and without slashes. -/
structure ProperName (name : Name) : Prop where
  nonempty : name ≠ []
  noSlash : slash ∉ name
  notDot : name ≠ [dot]
  notDots : name ≠ [dot, dot]

/-- Proper names, at least one, with single slashes between them. -/
def Canonical (path : PathBuf) : Prop :=
  ∃ names : List Name, names ≠ [] ∧ (∀ name ∈ names, ProperName name) ∧
    path = [slash].intercalate names

section Pieces

variable {path : PathBuf} {piece : Name}

theorem slash_notMem_piece (isPiece : piece ∈ path.pieces) : slash ∉ piece := by
  induction path generalizing piece with
  | nil =>
    rw [List.mem_singleton.mp isPiece]
    exact List.not_mem_nil
  | cons byte path ih =>
    unfold pieces at isPiece ih
    rw [List.splitOn_cons_eq_if_modifyHead] at isPiece
    split at isPiece
    · rcases List.mem_cons.mp isPiece with rfl | later
      · exact List.not_mem_nil
      · exact ih later
    · next differs =>
      cases rest : path.splitOn slash with
      | nil =>
        rw [rest] at isPiece
        cases isPiece
      | cons first more =>
        rw [rest, List.modifyHead_cons] at isPiece
        rw [rest] at ih
        rcases List.mem_cons.mp isPiece with rfl | later
        · intro mem
          rcases List.mem_cons.mp mem with same | earlier
          · exact differs (by simp [same])
          · exact ih List.mem_cons_self earlier
        · exact ih (List.mem_cons_of_mem _ later)

theorem canonical_iff : path.Canonical ↔ ∀ name ∈ path.pieces, ProperName name := by
  constructor
  · rintro ⟨names, filled, proper, rfl⟩
    unfold pieces
    rw [List.splitOn_intercalate slash (fun name mem => (proper name mem).noSlash) filled]
    exact proper
  · intro proper
    exact ⟨path.pieces, List.splitOn_ne_nil _ _, proper, (List.intercalate_splitOn slash).symm⟩

/-- A canonical path is given by its names. -/
theorem pieces_injective : Function.Injective pieces := by
  intro p q same
  have joined := congrArg (List.intercalate [slash]) same
  rwa [pieces, pieces, List.intercalate_splitOn, List.intercalate_splitOn] at joined

theorem pieces_append_slash (front back : PathBuf) :
    pieces (front ++ slash :: back) = front.pieces ++ back.pieces :=
  List.splitOn_append_cons_self front back

theorem not_hasRoot (filled : [] ∉ path.pieces) : path.hasRoot = false := by
  cases path with
  | nil => rfl
  | cons byte path =>
    unfold hasRoot
    by_contra root
    have same : byte = slash := by simpa using root
    apply filled
    rw [same, ← List.nil_append (slash :: path), pieces_append_slash]
    exact List.mem_cons_self

theorem not_includeCurDir (noDot : [dot] ∉ path.pieces) : path.includeCurDir = false := by
  unfold includeCurDir
  by_contra dotted
  have head : path.pieces.head? = some [dot] := by simpa using dotted
  exact noDot (List.mem_of_head? head)

/-- Pieces that are all names are all the components. -/
theorem components_of_pieces (filled : [] ∉ path.pieces) (noDot : [dot] ∉ path.pieces) :
    path.components = path.pieces.map fun piece =>
      if piece = [dot, dot] then .parentDir else .normal piece := by
  unfold components
  rw [not_hasRoot filled, not_includeCurDir noDot]
  simp only [Bool.false_eq_true, if_false, List.nil_append]
  rw [← List.filterMap_eq_map]
  apply List.filterMap_congr
  intro piece mem
  have nonempty : piece ≠ [] := fun same => filled (same ▸ mem)
  have notDot : piece ≠ [dot] := fun same => noDot (same ▸ mem)
  simp only [parseSingleComponent, nonempty, notDot, or_self, if_false, Function.comp_apply]
  split <;> rfl

theorem Canonical.components (canonical : path.Canonical) :
    path.components = path.pieces.map .normal := by
  have proper := canonical_iff.mp canonical
  rw [components_of_pieces (fun mem => (proper _ mem).nonempty rfl)
    fun mem => (proper _ mem).notDot rfl]
  exact List.map_congr_left fun piece mem => if_neg (proper piece mem).notDots

end Pieces

/-! ## What is accepted -/

theorem validateRelativePath_eq_ok {path : PathBuf} :
    path.validateRelativePath = .ok () ↔
      (∀ component ∈ path.components, path.validateComponent component = .ok ()) ∧
        path.components.any Component.isNormal = true := by
  unfold validateRelativePath validateRelativePathComponents
  rw [bind_eq_ok, ← forM_ok_iff]
  constructor
  · rintro ⟨⟨⟩, relative, named⟩
    refine ⟨relative, ?_⟩
    by_contra unnamed
    rw [if_pos (by simpa using unnamed)] at named
    cases named
  · rintro ⟨relative, named⟩
    exact ⟨⟨⟩, relative, if_neg (by simp [named])⟩

/-- The check of the components together with the check of the bytes accepts the canonical
paths. -/
theorem validateCanonicalEntryPath_eq_ok (path : PathBuf) :
    path.validateCanonicalEntryPath = .ok () ↔ path.Canonical := by
  unfold validateCanonicalEntryPath
  rw [bind_eq_ok, canonical_iff]
  constructor
  · rintro ⟨⟨⟩, relative, spelled⟩
    have spelled : path.pieces.any (fun piece => piece.isEmpty || piece == [dot]) = false := by
      by_contra aliased
      rw [if_pos (by simp [aliased])] at spelled
      cases spelled
    have filled : [] ∉ path.pieces := fun mem => by
      simpa using List.any_eq_false.mp spelled [] mem
    have noDot : [dot] ∉ path.pieces := fun mem => by
      simpa using List.any_eq_false.mp spelled [dot] mem
    obtain ⟨components, -⟩ := validateRelativePath_eq_ok.mp relative
    rw [components_of_pieces filled noDot] at components
    intro piece mem
    refine ⟨fun same => filled (same ▸ mem), slash_notMem_piece mem, fun same => noDot (same ▸ mem),
      fun same => ?_⟩
    have checked := components .parentDir (List.mem_map.mpr ⟨piece, mem, if_pos same⟩)
    cases checked
  · intro proper
    have canonical := canonical_iff.mpr proper
    refine ⟨⟨⟩, validateRelativePath_eq_ok.mpr ⟨?_, ?_⟩, if_neg ?_⟩
    · rw [canonical.components]
      intro component mem
      obtain ⟨piece, -, rfl⟩ := List.mem_map.mp mem
      rfl
    · rw [canonical.components]
      obtain ⟨piece, rest, pieces⟩ := List.exists_cons_of_ne_nil (List.splitOn_ne_nil slash path)
      unfold PathBuf.pieces
      rw [pieces]
      rfl
    · have nonempty : path ≠ [] := by
        rintro rfl
        exact (proper [] (List.mem_singleton.mpr rfl)).nonempty rfl
      have clean : ∀ piece ∈ path.pieces, ¬ (piece.isEmpty || piece == [dot]) = true := by
        intro piece mem
        have isProper := proper piece mem
        simp [isProper.nonempty, isProper.notDot]
      simp [nonempty, List.any_eq_false.mpr clean]

theorem validateActions_eq_ok {actions : List Action} :
    validateActions actions = .ok () ↔ ∀ path ∈ entryPaths actions, path.Canonical := by
  have changes : ∀ change : Change, validateChangePaths change = .ok () ↔
      ∀ path ∈ change.paths, path.Canonical := by
    intro change
    unfold validateChangePaths
    rw [forM_ok_iff]
    refine forall_congr' fun path => imp_congr_right fun _ => ?_
    rw [← validateCanonicalEntryPath_eq_ok]
    unfold validateEntryPath
    cases path.validateCanonicalEntryPath <;> simp [Except.mapError]
  unfold validateActions entryPaths
  rw [forM_ok_iff]
  simp only [forM_ok_iff, changes, List.mem_flatMap]
  constructor
  · rintro all path ⟨action, isAction, change, isChange, isPath⟩
    exact all action isAction change isChange path isPath
  · intro all action isAction change isChange path isPath
    exact all path ⟨action, isAction, change, isChange, isPath⟩

/-- The path of an action is the path of one of its entries. -/
theorem path_mem_entryPaths {actions : List Action} {action : Action} (mem : action ∈ actions) :
    action.path ∈ entryPaths actions := by
  have change : ∀ change : Change, change.path ∈ change.paths := by
    intro change
    cases change <;> simp [Change.path, Change.paths]
  have inside : ∃ change ∈ action.changes, action.path = change.path := by
    cases action <;> simp [Action.changes, Action.path]
  obtain ⟨change', isChange, same⟩ := inside
  unfold entryPaths
  rw [same]
  exact List.mem_flatMap.mpr ⟨action, mem, List.mem_flatMap.mpr ⟨change', isChange, change change'⟩⟩

/-- The components of an accepted path pass the check of a path that is given as components. -/
theorem Canonical.canonicalPath {path : PathBuf} (canonical : path.Canonical) :
    CanonicalPath path.components := by
  rw [canonical.components]
  refine ⟨?_, fun component mem => ?_⟩
  · exact fun none => List.splitOn_ne_nil slash path (List.map_eq_nil_iff.mp none)
  · obtain ⟨piece, -, rfl⟩ := List.mem_map.mp mem
    rfl

/-! ## Joined paths -/

section Join

variable {base path q : PathBuf}

theorem pieces_head_append_slash (front back : PathBuf) :
    (pieces (front ++ slash :: back)).head? = front.pieces.head? := by
  have filled : front.pieces ≠ [] := List.splitOn_ne_nil slash front
  rw [pieces_append_slash, List.head?_append_of_ne_nil _ filled]

/-- A slash ends the components before it. -/
theorem components_append_slash (front : PathBuf) (canonical : path.Canonical) :
    PathBuf.components (front ++ slash :: path) =
      PathBuf.components (front ++ [slash]) ++ path.components := by
  have proper := canonical_iff.mp canonical
  have root : hasRoot (front ++ slash :: path) = hasRoot (front ++ [slash]) := by
    unfold hasRoot
    cases front <;> rfl
  have parsed : path.components = path.pieces.filterMap parseSingleComponent := by
    have noRoot := not_hasRoot fun mem => (proper _ mem).nonempty rfl
    have noDot := not_includeCurDir fun mem => (proper _ mem).notDot rfl
    rw [PathBuf.components, noRoot, noDot]
    rfl
  have nothing : [([] : Name)].filterMap parseSingleComponent = [] := rfl
  rw [parsed]
  unfold PathBuf.components includeCurDir
  rw [root, pieces_head_append_slash, pieces_head_append_slash, pieces_append_slash,
    pieces_append_slash, List.filterMap_append, List.filterMap_append]
  change _ = _ ++ (_ ++ [([] : Name)].filterMap parseSingleComponent) ++ _
  rw [nothing, List.append_nil, List.append_assoc]

/-- A slash at the end of a path is left out. -/
theorem components_append_singleton (filled : base ≠ []) :
    PathBuf.components (base ++ [slash]) = base.components := by
  have root : hasRoot (base ++ [slash]) = hasRoot base := by
    unfold hasRoot
    rw [List.head?_append_of_ne_nil _ filled]
  have nothing : [([] : Name)].filterMap parseSingleComponent = [] := rfl
  unfold PathBuf.components includeCurDir
  rw [root, pieces_head_append_slash, pieces_append_slash, List.filterMap_append]
  change _ ++ (_ ++ [([] : Name)].filterMap parseSingleComponent) = _
  rw [nothing, List.append_nil]

/-- A canonical path is joined to a base as its components. -/
theorem components_join (base : PathBuf) (canonical : path.Canonical) :
    (base.join path).components = base.components ++ path.components := by
  have proper := canonical_iff.mp canonical
  have relative : path.hasRoot = false := not_hasRoot fun mem => (proper _ mem).nonempty rfl
  unfold join
  rw [relative, if_neg Bool.false_ne_true]
  split
  · next ended =>
    have filled : base ≠ [] := by
      rintro rfl
      cases ended
    rw [components_append_slash base canonical, components_append_singleton filled]
  · next ended =>
    rcases List.eq_nil_or_concat' base with rfl | ⟨front, last, rfl⟩
    · rfl
    · have same : last = slash := by simpa using ended
      rw [same, List.append_assoc, List.singleton_append, components_append_slash front canonical]

theorem safeJoin_eq_ok (base : PathBuf) (canonical : path.Canonical) :
    base.safeJoin path = .ok (base.join path) := by
  have checked := (validateCanonicalEntryPath_eq_ok path).mpr canonical
  unfold validateCanonicalEntryPath at checked
  obtain ⟨⟨⟩, relative, -⟩ := bind_eq_ok.mp checked
  unfold safeJoin
  rw [relative]
  rfl

end Join

/-! ## Comparisons -/

section Order

/-- A map that keeps the order of the elements keeps the order of the lists. -/
theorem map_lt_map_iff {α β : Type} [LT α] [LT β] {f : α → β} (lt : ∀ a b, f a < f b ↔ a < b)
    (inj : ∀ a b, f a = f b ↔ a = b) (l m : List α) : l.map f < m.map f ↔ l < m := by
  induction l generalizing m with
  | nil =>
    cases m with
    | nil => simp
    | cons b m => simp
  | cons a l ih =>
    cases m with
    | nil => simp
    | cons b m =>
      rw [List.map_cons, List.map_cons, List.cons_lt_cons_iff, List.cons_lt_cons_iff, lt, inj, ih]

/-- Names are ordered by their bytes. -/
theorem normal_lt_normal_iff (n m : Name) : Component.normal n < Component.normal m ↔ n < m := by
  have bytes : n.map UInt8.toNat < m.map UInt8.toNat ↔ n < m :=
    map_lt_map_iff (fun a b => UInt8.lt_iff_toNat_lt.symm) (fun a b => UInt8.toNat_inj) n m
  change toLex ((3 : Nat), n.map UInt8.toNat) < toLex (3, m.map UInt8.toNat) ↔ _
  rw [Prod.Lex.toLex_lt_toLex, ← bytes]
  simp

variable {path other : PathBuf}

theorem normal_injective : Function.Injective Component.normal :=
  fun _ _ same => Component.normal.inj same

theorem components_eq_iff (canonical : path.Canonical) (canonical' : other.Canonical) :
    path.components = other.components ↔ path = other := by
  rw [canonical.components, canonical'.components, normal_injective.list_map.eq_iff,
    pieces_injective.eq_iff]

theorem components_lt_iff (canonical : path.Canonical) (canonical' : other.Canonical) :
    path.components < other.components ↔ path.pieces < other.pieces := by
  rw [canonical.components, canonical'.components]
  exact map_lt_map_iff normal_lt_normal_iff (fun _ _ => normal_injective.eq_iff) _ _

theorem startsWith_iff_pieces (canonical : path.Canonical) (canonical' : other.Canonical) :
    path.components.startsWith other.components = true ↔ other.pieces <+: path.pieces := by
  rw [Path.startsWith_iff, canonical.components, canonical'.components,
    List.prefix_map_iff_of_injective normal_injective]

/-- The names of a path are in front of those of the paths that continue it behind a slash. -/
theorem pieces_prefix_iff (canonical : path.Canonical) :
    other.pieces <+: path.pieces ↔ path = other ∨ other ++ [slash] <+: path := by
  have proper := canonical_iff.mp canonical
  constructor
  · rintro ⟨more, same⟩
    rcases List.eq_nil_or_concat' more with rfl | ⟨front, last, concat⟩
    · rw [List.append_nil] at same
      exact .inl (pieces_injective same.symm)
    · have filled : more ≠ [] := by simp [concat]
      have noSlash : ∀ piece ∈ more, slash ∉ piece := fun piece mem =>
        (proper piece (same ▸ List.mem_append_right _ mem)).noSlash
      have behind : pieces ([slash].intercalate more) = more :=
        List.splitOn_intercalate slash noSlash filled
      have whole : other ++ slash :: [slash].intercalate more = path := by
        apply pieces_injective
        rw [pieces_append_slash, behind, same]
      exact .inr ⟨[slash].intercalate more, by rw [← whole]; simp⟩
  · rintro (rfl | ⟨rest, rfl⟩)
    · exact List.prefix_refl _
    · rw [List.append_assoc, List.singleton_append, pieces_append_slash]
      exact List.prefix_append _ _

/-- In a strictly increasing list the descendants of a path follow it, one after the other, and
there are no more of them. -/
theorem descendants_contiguous {κ : Type} {key : κ → Path} {front rest : List κ} {a : κ}
    (increasing : ((front ++ a :: rest).map key).Pairwise (· < ·)) :
    ∃ below after, rest = below ++ after ∧ (∀ b ∈ below, key a <+: key b) ∧
      ∀ b ∈ front ++ after, ¬ key a <+: key b := by
  rw [List.pairwise_map, List.pairwise_append, List.pairwise_cons] at increasing
  obtain ⟨-, ⟨above, later⟩, before⟩ := increasing
  refine ⟨rest.takeWhile fun b => decide (key a <+: key b),
    rest.dropWhile fun b => decide (key a <+: key b), List.takeWhile_append_dropWhile.symm, ?_, ?_⟩
  · intro b mem
    simpa using List.mem_takeWhile_imp mem
  · intro b mem starts
    rcases List.mem_append.mp mem with earlier | after
    · exact absurd (le_of_isPrefix starts) (not_le.mpr (before b earlier a List.mem_cons_self))
    · cases dropped : rest.dropWhile fun b => decide (key a <+: key b) with
      | nil =>
        rw [dropped] at after
        cases after
      | cons first more =>
        have other : ¬ key a <+: key first := by
          have head := List.head?_dropWhile_not (fun b => decide (key a <+: key b)) rest
          rw [dropped] at head
          simpa using head
        have suffix : first :: more <:+ rest := dropped ▸ List.dropWhile_suffix _
        have sorted := later.sublist suffix.sublist
        rw [dropped] at after
        have lower : key first ≤ key b := by
          rcases List.mem_cons.mp after with rfl | behind
          · exact le_refl _
          · exact ((List.pairwise_cons.mp sorted).1 b behind).le
        have upper : key a ≤ key first := (above first (suffix.subset List.mem_cons_self)).le
        exact other (prefix_of_le_of_le (List.prefix_refl _) starts upper lower)

end Order

/-- A path is accepted exactly when it is canonical. In an accepted list of actions every path is
joined to a base as names below it, different paths stay different, and the comparisons of paths
are those of their names; when the actions are in order, what is below a path follows it without
gaps. -/
theorem accepted_iff_canonical :
    (∀ path : PathBuf, path.validateCanonicalEntryPath = .ok () ↔ path.Canonical) ∧
    ∀ actions : List Action, validateActions actions = .ok () →
      (∀ path ∈ entryPaths actions, path.components = path.pieces.map .normal ∧ path.pieces ≠ [] ∧
        ∀ base : PathBuf, base.safeJoin path = .ok (base.join path) ∧
          (base.join path).components = base.components ++ path.pieces.map .normal) ∧
      (∀ path ∈ entryPaths actions, ∀ other ∈ entryPaths actions,
        (∀ base : PathBuf, path ≠ other →
          (base.join path).components ≠ (base.join other).components) ∧
        (path.components = other.components ↔ path = other) ∧
        (path.pieces = other.pieces ↔ path = other) ∧
        (path.components.startsWith other.components = true ↔ other.pieces <+: path.pieces) ∧
        (other.pieces <+: path.pieces ↔ path = other ∨ other ++ [slash] <+: path) ∧
        (path.components < other.components ↔ path.pieces < other.pieces)) ∧
      ((actions.map fun action => action.path.components).Pairwise (· < ·) →
        ∀ front action rest, actions = front ++ action :: rest →
          ∃ below after, rest = below ++ after ∧
            (∀ b ∈ below, b.path.components.startsWith action.path.components = true) ∧
            ∀ b ∈ front ++ after,
              b.path.components.startsWith action.path.components = false) := by
  refine ⟨validateCanonicalEntryPath_eq_ok, fun actions accepted => ?_⟩
  have canonical := validateActions_eq_ok.mp accepted
  refine ⟨fun path mem => ?_, fun path mem other mem' => ?_, ?_⟩
  · have isCanonical := canonical path mem
    refine ⟨isCanonical.components, List.splitOn_ne_nil slash path, fun base => ?_⟩
    rw [← isCanonical.components]
    exact ⟨safeJoin_eq_ok base isCanonical, components_join base isCanonical⟩
  · have left := canonical path mem
    have right := canonical other mem'
    refine ⟨fun base differs same => differs ?_, components_eq_iff left right,
      pieces_injective.eq_iff, startsWith_iff_pieces left right, pieces_prefix_iff left,
      components_lt_iff left right⟩
    rw [components_join base left, components_join base right] at same
    exact (components_eq_iff left right).mp (List.append_cancel_left same)
  · rintro increasing front action rest rfl
    obtain ⟨below, after, split, descend, others⟩ := descendants_contiguous increasing
    refine ⟨below, after, split, fun b mem => ?_, fun b mem => ?_⟩
    · exact Path.startsWith_iff.mpr (descend b mem)
    · exact Path.startsWith_eq_false_iff.mpr (others b mem)

/-- `a`, `a/x` and `a/y`, and after them `a-b`, whose bytes are less than those of `a/x`. -/
theorem accepted_iff_canonical_below :
    let entries : List Action := [.remote (.modified [97, 47, 120] [97, 47, 120]),
      .conflict (.removed [97, 47, 121]) (.modified [97, 47, 121] [97, 47, 121]),
      .local (.added [97, 45, 98])]
    validateActions (.local (.added [97]) :: entries) = .ok () ∧
      (∀ base : PathBuf, base.safeJoin [97, 47, 120] = .ok (base.join [97, 47, 120]) ∧
        (base.join [97, 47, 120]).components =
          base.components ++ [.normal [97], .normal [120]] ∧
        (base.join [97, 47, 120]).components ≠ (base.join [97, 45, 98]).components) ∧
      ([97, 45, 98] : PathBuf) < [97, 47, 120] ∧
      PathBuf.components [97, 47, 120] < PathBuf.components [97, 45, 98] ∧
      ∃ below after, entries = below ++ after ∧
        (∀ b ∈ below, b.path.components.startsWith (PathBuf.components [97]) = true) ∧
        ∀ b ∈ after, b.path.components.startsWith (PathBuf.components [97]) = false := by
  intro entries
  have accepted : validateActions (.local (.added [97]) :: entries) = .ok () := rfl
  obtain ⟨joined, compared, contiguous⟩ := accepted_iff_canonical.2 _ accepted
  have inside : [97, 47, 120] ∈ entryPaths (.local (.added [97]) :: entries) := by decide
  have beside : [97, 45, 98] ∈ entryPaths (.local (.added [97]) :: entries) := by decide
  obtain ⟨-, -, atBase⟩ := joined _ inside
  obtain ⟨apart, -, -, -, -, ordered⟩ := compared _ inside _ beside
  refine ⟨accepted, fun base => ⟨(atBase base).1, (atBase base).2, apart base (by decide)⟩,
    by decide, ordered.mpr (by decide), contiguous (by decide) [] _ entries rfl⟩

end PathBuf

end Duet
