import Mathlib.Data.List.Basic
import RandomTables.Outcome.Outline
import RandomTables.Proofs.IndexPath.Spelled
import RandomTables.Proofs.IndexPath.Step
import RandomTables.Proofs.Outcome.Below

/-!
# The paths in an outline

An outline has lines for titles and extra texts, and a line with an index path for every row and
every repeat. The paths that it shows are those that lead to a row or a repeat, each once and in the
order of a walk through the outcome, and what is read from such a line is the path that leads to the
very row that the line shows.
-/
namespace RandomTables

/-! ## The parts of a table or bundle -/

/-- The rows of a table, or the repeats of a bundle. -/
def Node.sections : Node → List Piece
  | table roll => roll.rows.map .row
  | bundle roll => roll.repeats.map .nodes
  | leaf _ _ => []

/-- The nodes in a row or repeat. -/
def Piece.nested : Piece → List Node
  | .row roll => roll.nested
  | .nodes items => items
  | .node _ => []

/-! ## Lines -/

/-- What a line with an index path shows. -/
def OutlineLine.mark? : OutlineLine → Option OutlineMark
  | part mark => some mark
  | _ => none

theorem OutlineLine.filterMap_mark?_part (mark : OutlineMark) (rest : List OutlineLine) :
    (part mark :: rest).filterMap mark? = mark :: rest.filterMap mark? := rfl

/-- The index path that a line of text begins with, in brackets behind the blanks in front. -/
def IndexPath.ofLine? (line : Text) : Option IndexPath :=
  match line.dropWhile (· == .char ' ') with
  | .char '[' :: rest => read? ("[" ++ rest.takeWhile (· != .char ']') ++ "]")
  | _ => none

/-- An index path is found behind blanks, whatever follows it. -/
theorem IndexPath.ofLine?_integers (n : Nat) (path : IndexPath) (rest : Text) :
    ofLine? (Text.copies n ' ' ++ (Text.integers path ++ rest)) = some path := by
  let list := Text.joinWith ", " (path.map Text.integer)
  have hclose : ∀ c ∈ list, (c != .char ']') = true := by
    intro c hc
    rw [bne_iff_ne]
    rintro rfl
    obtain hdecimal | hother := of_mem_list hc
    · exact absurd hdecimal (by decide)
    · exact absurd hother (by decide)
  have htake : (list ++ .char ']' :: rest).takeWhile (· != .char ']') = list := by
    rw [List.takeWhile_append_of_pos hclose]
    exact List.append_nil list
  have hline : Text.copies n ' ' ++ (Text.integers path ++ rest) =
      Text.copies n ' ' ++ .char '[' :: (list ++ .char ']' :: rest) := by
    rw [Text.integers, List.append_assoc, List.append_assoc]
    rfl
  have hblanks : ∀ c ∈ Text.copies n ' ', (c == .char ' ') = true := fun c hc =>
    beq_iff_eq.2 (List.eq_of_mem_replicate hc)
  rw [ofLine?, hline, List.dropWhile_append_of_pos hblanks, List.dropWhile_cons_of_neg (by decide)]
  simp only [htake]
  exact read?_integers path

theorem OutlineMark.ofLine?_text (mark : OutlineMark) :
    IndexPath.ofLine? mark.text = some mark.path := by
  have hpad : outlinePad mark.level ++ Text.copies 2 ' ' =
      Text.copies (2 * mark.level.toNat + 2) ' ' := List.replicate_append_replicate
  change outlinePad mark.level ++ "  " = _ at hpad
  rw [OutlineMark.text, hpad, List.append_assoc, IndexPath.ofLine?_integers]

/-! ## The marks of an outline -/

namespace Node
variable {node child : Node}

theorem kind_of_mem_sections {piece : Piece} (h : piece ∈ node.sections) : piece.kind ≠ .node := by
  cases node with
  | table roll =>
    obtain ⟨row, _, rfl⟩ := List.mem_map.1 h
    exact nofun
  | bundle roll =>
    obtain ⟨nodes, _, rfl⟩ := List.mem_map.1 h
    exact nofun
  | leaf => cases h

theorem mem_children_of_sections {piece : Piece} (h : piece ∈ node.sections)
    (hchild : child ∈ piece.nested) : child ∈ node.children := by
  cases node with
  | table roll =>
    obtain ⟨row, hrow, rfl⟩ := List.mem_map.1 h
    exact mem_children_table_iff.2 (.inr (.inl ⟨row, hrow, hchild⟩))
  | bundle roll =>
    obtain ⟨nodes, hnodes, rfl⟩ := List.mem_map.1 h
    exact mem_children_bundle_iff.2 ⟨nodes, hnodes, hchild⟩
  | leaf => cases h

end Node

/-- What an outline shows of a node that a path leads to. -/
def Node.marks (level : Int) (path : IndexPath) (node : Node) : List OutlineMark :=
  (node.lines level path).filterMap OutlineLine.mark?

/-- What an outline shows of a row or repeat that a path leads to: itself, and what is shown of the
nodes in it. -/
def Piece.marks (level : Int) (path : IndexPath) (piece : Piece) : List OutlineMark :=
  ⟨level, path, piece⟩ :: piece.nested.zipIdx.flatMap fun e =>
    e.1.marks (level + 2) (path ++ [(e.2 : Int)])

theorem marks_linesOfNodes (level : Int) (path : IndexPath) (index : Nat) (nodes : List Node) :
    (linesOfNodes level path index nodes).filterMap OutlineLine.mark? =
      (nodes.zipIdx index).flatMap fun e => e.1.marks level (path ++ [(e.2 : Int)]) := by
  induction nodes generalizing index with
  | nil =>
    rw [linesOfNodes]
    rfl
  | cons node rest ih =>
    rw [linesOfNodes, List.filterMap_append, ih, List.zipIdx_cons, List.flatMap_cons]
    rfl

theorem marks_linesOfRows (level : Int) (path : IndexPath) (index : Nat) (rows : List RowRoll) :
    (linesOfRows level path index rows).filterMap OutlineLine.mark? =
      (rows.zipIdx index).flatMap fun e =>
        Piece.marks level (path ++ [(e.2 : Int)]) (.row e.1) := by
  induction rows generalizing index with
  | nil =>
    rw [linesOfRows]
    rfl
  | cons row rest ih =>
    rw [List.zipIdx_cons, List.flatMap_cons, ← ih]
    cases row with
    | missing total =>
      rw [linesOfRows]
      rfl
    | found row =>
      obtain ⟨total, range, text, nested, values, stored⟩ := row
      rw [linesOfRows, OutlineLine.filterMap_mark?_part, List.filterMap_append,
        marks_linesOfNodes]
      rfl

theorem marks_linesOfRepeats (level : Int) (path : IndexPath) (index : Nat)
    (repeats : List (List Node)) :
    (linesOfRepeats level path index repeats).filterMap OutlineLine.mark? =
      (repeats.zipIdx index).flatMap fun e =>
        Piece.marks level (path ++ [(e.2 : Int)]) (.nodes e.1) := by
  induction repeats generalizing index with
  | nil =>
    rw [linesOfRepeats]
    rfl
  | cons nodes rest ih =>
    rw [List.zipIdx_cons, List.flatMap_cons, ← ih, linesOfRepeats,
      OutlineLine.filterMap_mark?_part, List.filterMap_append, marks_linesOfNodes]
    rfl

/-- An outline shows the rows of a table, or the repeats of a bundle, one after another. -/
theorem Node.marks_eq (level : Int) (path : IndexPath) (node : Node) :
    node.marks level path = node.sections.zipIdx.flatMap fun e =>
      e.1.marks level (path ++ [(e.2 : Int)]) := by
  cases node with
  | table roll =>
    obtain ⟨ref, table, rows, extra, extraNodes, inputs⟩ := roll
    have hextra : (if extra.isEmpty then ([] : List OutlineLine) else
        [.extra level ⟨ref, table, rows, extra, extraNodes, inputs⟩]).filterMap
          OutlineLine.mark? = [] := by
      split <;> rfl
    rw [marks, lines, List.filterMap_cons_none rfl, List.filterMap_append, hextra,
      List.append_nil, marks_linesOfRows, sections, List.zipIdx_map, List.flatMap_map]
    rfl
  | bundle roll =>
    obtain ⟨ref, bundle, repeats⟩ := roll
    rw [marks, lines, List.filterMap_cons_none rfl, marks_linesOfRepeats, sections,
      List.zipIdx_map, List.flatMap_map]
    rfl
  | leaf ref path =>
    rw [marks, lines]
    rfl

/-! ## Marks and places -/

theorem itemAt?_map {α β : Type} (f : α → β) (items : List α) (index : Int) :
    itemAt? (items.map f) index = (itemAt? items index).map f := by
  unfold itemAt?
  split
  · rfl
  · exact List.getElem?_map

namespace Piece
variable {piece part : Piece} {node : Node} {i : Int} {rest : IndexPath}

theorem item?_node (node : Node) (i : Int) :
    (Piece.node node).item? i = itemAt? node.sections i := by
  cases node with
  | table roll => exact (itemAt?_map ..).symm
  | bundle roll => exact (itemAt?_map ..).symm
  | leaf ref path =>
    rw [Node.sections, itemAt?]
    split <;> rfl

theorem item?_of_kind_ne (h : piece.kind ≠ .node) (i : Int) :
    piece.item? i = (itemAt? piece.nested i).map .node := by
  cases piece with
  | node => exact absurd rfl h
  | nodes items => rfl
  | row roll =>
    cases roll with
    | found row => rfl
    | missing total =>
      rw [nested, RowRoll.nested, itemAt?]
      split <;> rfl

/-- From a node a path leads to one of its rows or repeats, or through it to a node in it. -/
theorem follow?_node_iff (hkind : part.kind ≠ .node) {path : IndexPath} :
    (Piece.node node).follow? path = some part ↔ ∃ (i : Nat) (held : Piece),
      node.sections[i]? = some held ∧ (path = [(i : Int)] ∧ part = held ∨
        ∃ (k : Nat) (child : Node) (rest : IndexPath), held.nested[k]? = some child ∧
          path = (i : Int) :: (k : Int) :: rest ∧ (Piece.node child).follow? rest = some part) := by
  constructor
  · intro h
    cases path with
    | nil =>
      obtain rfl := Option.some.inj h
      exact absurd rfl hkind
    | cons i rest =>
      obtain ⟨held, hitem, hrest⟩ := Option.bind_eq_some_iff.1 h
      rw [item?_node] at hitem
      obtain ⟨i, rfl, hheld⟩ := itemAt?_eq_some_iff.1 hitem
      refine ⟨i, held, hheld, ?_⟩
      cases rest with
      | nil => exact .inl ⟨rfl, (Option.some.inj hrest).symm⟩
      | cons k rest =>
        obtain ⟨next, hnext, hfollow⟩ := Option.bind_eq_some_iff.1 hrest
        rw [item?_of_kind_ne (Node.kind_of_mem_sections (List.mem_of_getElem? hheld))] at hnext
        obtain ⟨child, hchild, rfl⟩ := Option.map_eq_some_iff.1 hnext
        obtain ⟨k, rfl, hchild⟩ := itemAt?_eq_some_iff.1 hchild
        exact .inr ⟨k, child, rest, hchild, rfl, hfollow⟩
  · rintro ⟨i, held, hheld, hpart⟩
    have hitem : (Piece.node node).item? i = some held :=
      (item?_node node i).trans (itemAt?_eq_some_iff.2 ⟨i, rfl, hheld⟩)
    obtain ⟨rfl, rfl⟩ | ⟨k, child, rest, hchild, rfl, hrest⟩ := hpart
    · rw [follow?, hitem]
      rfl
    · have hnext : held.item? k = some (.node child) := by
        rw [item?_of_kind_ne (Node.kind_of_mem_sections (List.mem_of_getElem? hheld)),
          itemAt?_eq_some_iff.2 ⟨k, rfl, hchild⟩]
        rfl
      rw [follow?, hitem, Option.bind_some, follow?, hnext, Option.bind_some, hrest]

end Piece

namespace Node

/-- An outline shows exactly the rows and repeats that a path leads to, each with its path, and
indented by the length of the path. -/
theorem mem_marks_iff {level : Int} {path : IndexPath} {node : Node} {mark : OutlineMark} :
    mark ∈ node.marks level path ↔ ∃ rest : IndexPath, mark.path = path ++ rest ∧
      mark.level = level + rest.length - 1 ∧
      (Piece.node node).follow? rest = some mark.piece ∧ mark.piece.kind ≠ .node := by
  induction node using children_induction generalizing level path with
  | step node ih =>
    rw [marks_eq]
    simp only [Piece.marks, List.mem_flatMap, Prod.exists, List.mem_zipIdx_iff_getElem?,
      List.mem_cons]
    constructor
    · rintro ⟨held, i, hheld, rfl | ⟨child, k, hchild, hmark⟩⟩
      · have hkind := kind_of_mem_sections (List.mem_of_getElem? hheld)
        refine ⟨[(i : Int)], rfl, by simp, ?_, hkind⟩
        exact (Piece.follow?_node_iff hkind).2 ⟨i, held, hheld, .inl ⟨rfl, rfl⟩⟩
      · have hmem := mem_children_of_sections (List.mem_of_getElem? hheld)
          (List.mem_of_getElem? hchild)
        obtain ⟨rest, hpath, hlevel, hfollow, hkind⟩ := (ih child hmem).1 hmark
        refine ⟨(i : Int) :: (k : Int) :: rest, by simp [hpath], ?_, ?_, hkind⟩
        · rw [hlevel, List.length_cons, List.length_cons]
          omega
        · exact (Piece.follow?_node_iff hkind).2
            ⟨i, held, hheld, .inr ⟨k, child, rest, hchild, rfl, hfollow⟩⟩
    · rintro ⟨rest, hpath, hlevel, hfollow, hkind⟩
      obtain ⟨i, held, hheld, ⟨rfl, hpiece⟩ | ⟨k, child, rest, hchild, rfl, hrest⟩⟩ :=
        (Piece.follow?_node_iff hkind).1 hfollow
      · refine ⟨held, i, hheld, .inl ?_⟩
        cases mark
        simp_all
      · have hmem := mem_children_of_sections (List.mem_of_getElem? hheld)
          (List.mem_of_getElem? hchild)
        refine ⟨held, i, hheld, .inr ⟨child, k, hchild, (ih child hmem).2
          ⟨rest, by simp [hpath], ?_, hrest, hkind⟩⟩⟩
        rw [hlevel, List.length_cons, List.length_cons]
        omega

end Node

/-! ## The order of marks -/

theorem pairwise_zipIdx {α : Type} (items : List α) :
    items.zipIdx.Pairwise fun a b => a.2 < b.2 := by
  have hmap : (items.zipIdx.map Prod.snd).Pairwise (· < ·) := by
    rw [List.zipIdx_map_snd]
    exact List.pairwise_lt_range' 1
  exact List.pairwise_map.1 hmap

/-- Paths that part at an index are in the order of what they go on with. -/
theorem IndexPath.lt_of_lt {i j : Int} (h : i < j) (front rest more : IndexPath) :
    front ++ [i] ++ rest < front ++ [j] ++ more := by
  rw [List.append_assoc, List.append_assoc]
  exact List.append_left_lt (List.cons_lt_cons_iff.2 (.inl h))

/-- A path comes before those that go on from where it leads. -/
theorem IndexPath.lt_append (front : IndexPath) (i : Int) (rest : IndexPath) :
    front < front ++ [i] ++ rest := by
  have hlt : front ++ [] < front ++ (i :: rest) := List.append_left_lt (List.nil_lt_cons i rest)
  rwa [List.append_nil, ← List.singleton_append, ← List.append_assoc] at hlt

theorem Piece.exists_path_of_mem_marks {level : Int} {path : IndexPath} {piece : Piece}
    {mark : OutlineMark} (h : mark ∈ piece.marks level path) :
    ∃ rest, mark.path = path ++ rest := by
  obtain rfl | h := List.mem_cons.1 h
  · exact ⟨[], (List.append_nil path).symm⟩
  · obtain ⟨⟨child, k⟩, _, hmark⟩ := List.mem_flatMap.1 h
    obtain ⟨rest, hpath, _⟩ := Node.mem_marks_iff.1 hmark
    exact ⟨[(k : Int)] ++ rest, by rw [hpath, List.append_assoc]⟩

/-- An outline shows rows and repeats in the order of their paths, so that it shows each only once
and goes down from one before it goes on to the next. -/
theorem Node.pairwise_marks (level : Int) (path : IndexPath) (node : Node) :
    (node.marks level path).Pairwise fun a b => a.path < b.path := by
  induction node using children_induction generalizing level path with
  | step node ih =>
    rw [marks_eq, List.pairwise_flatMap]
    constructor
    · rintro ⟨held, i⟩ hheld
      have hheld := List.mem_of_getElem? (List.mem_zipIdx_iff_getElem?.1 hheld)
      rw [Piece.marks, List.pairwise_cons, List.pairwise_flatMap]
      refine ⟨?_, ?_, ?_⟩
      · intro mark hmark
        obtain ⟨⟨child, k⟩, _, hmark⟩ := List.mem_flatMap.1 hmark
        obtain ⟨rest, hpath, _⟩ := mem_marks_iff.1 hmark
        rw [hpath]
        exact IndexPath.lt_append _ _ _
      · rintro ⟨child, k⟩ hchild
        have hchild := List.mem_of_getElem? (List.mem_zipIdx_iff_getElem?.1 hchild)
        exact ih child (mem_children_of_sections hheld hchild) _ _
      · refine (pairwise_zipIdx held.nested).imp ?_
        rintro ⟨child, k⟩ ⟨other, k'⟩ hlt mark hmark mark' hmark'
        obtain ⟨rest, hpath, _⟩ := mem_marks_iff.1 hmark
        obtain ⟨rest', hpath', _⟩ := mem_marks_iff.1 hmark'
        rw [hpath, hpath']
        exact IndexPath.lt_of_lt (Int.ofNat_lt.2 hlt) _ _ _
    · refine (pairwise_zipIdx node.sections).imp ?_
      rintro ⟨held, i⟩ ⟨other, j⟩ hlt mark hmark mark' hmark'
      obtain ⟨rest, hpath⟩ := Piece.exists_path_of_mem_marks hmark
      obtain ⟨rest', hpath'⟩ := Piece.exists_path_of_mem_marks hmark'
      rw [hpath, hpath']
      exact IndexPath.lt_of_lt (Int.ofNat_lt.2 hlt) _ _ _

/-- The paths that are read off printed lines are those of the marks, unless another line begins with
a path as well. -/
theorem OutlineLine.paths_eq {lines : List OutlineLine}
    (h : ∀ line ∈ lines, line.mark? = none → IndexPath.ofLine? line.text = none) :
    (lines.map text).filterMap IndexPath.ofLine? = (lines.filterMap mark?).map OutlineMark.path := by
  rw [List.filterMap_map, List.map_filterMap]
  refine List.filterMap_congr fun line hline => ?_
  cases line with
  | part mark => exact mark.ofLine?_text
  | title | extra => exact h _ hline rfl

/-- Whatever the other lines are, the paths of the marks are read in order. -/
theorem OutlineLine.paths_sublist (lines : List OutlineLine) :
    ((lines.filterMap mark?).map OutlineMark.path).Sublist
      ((lines.map text).filterMap IndexPath.ofLine?) := by
  let marked := lines.filter fun line => line.mark?.isSome
  have hmarks : marked.filterMap mark? = lines.filterMap mark? := by
    rw [List.filterMap_filter]
    refine List.filterMap_congr fun line _ => ?_
    cases line <;> rfl
  have hpaths : (marked.map text).filterMap IndexPath.ofLine? = _ := paths_eq <| by
    intro line hline hnone
    rw [List.mem_filter, hnone] at hline
    cases hline.2
  rw [← hmarks, ← hpaths]
  exact (List.filter_sublist.map text).filterMap _

/-- An outline is made of lines. Those with an index path show the rows and repeats of the outcome,
each once and in the order of their paths, with the path that leads there. Such a line has two blanks
for each level, two more and the path in brackets, from which the path is read again. Behind it stand
the total and the text of a row, or that there is no row for the total, and nothing for a repeat. So
from the printed lines alone all of these paths are read in order; and no others are, as long as no
title or extra text is itself written as a path in brackets. -/
theorem Node.outline_marks (level : Int) (context : Context) (node : Node) :
    node.outline level = Text.joinWith "\n" ((node.lines level []).map OutlineLine.text) ∧
      (node.marks level []).Pairwise (fun a b => a.path < b.path) ∧
      (∀ path piece, (∃ mark ∈ node.marks level [], mark.path = path ∧ mark.piece = piece) ↔
        ∃ l, node.locate? context path = some l ∧ l.target.piece = piece ∧ piece.kind ≠ .node) ∧
      (∀ mark ∈ node.marks level [], ∃ shown : Text,
        (OutlineLine.part mark).text = Text.copies (2 * mark.level.toNat) ' ' ++ "  " ++
          ("[" ++ Text.joinWith ", " (mark.path.map Text.integer) ++ "]") ++ shown ∧
        mark.level = level + mark.path.length - 1 ∧
        IndexPath.read? ("[" ++ Text.joinWith ", " (mark.path.map Text.integer) ++ "]") =
          some mark.path ∧
        (∀ total, mark.piece = .row (.missing total) →
          shown = " (no row for " ++ Text.integer total ++ ")") ∧
        (∀ row, mark.piece = .row (.found row) →
          shown = " (" ++ Text.integer row.total ++ ") " ++
            Resolved.writeAll (row.nested.map Node.inlineText) row.text) ∧
        ∀ nodes, mark.piece = .nodes nodes → shown = "") ∧
      ((node.marks level []).map OutlineMark.path).Sublist
        (((node.lines level []).map OutlineLine.text).filterMap IndexPath.ofLine?) ∧
      ((∀ line ∈ node.lines level [], line.mark? = none → IndexPath.ofLine? line.text = none) →
        ((node.lines level []).map OutlineLine.text).filterMap IndexPath.ofLine? =
          (node.marks level []).map OutlineMark.path) := by
  refine ⟨rfl, node.pairwise_marks level [], fun path piece => ⟨?_, ?_⟩, fun mark hmark => ?_,
    OutlineLine.paths_sublist _, OutlineLine.paths_eq⟩
  · rintro ⟨mark, hmark, rfl, rfl⟩
    obtain ⟨rest, hpath, _, hfollow, hkind⟩ := mem_marks_iff.1 hmark
    rw [List.nil_append] at hpath
    subst hpath
    obtain ⟨l, hl, hpiece⟩ := exists_locate?_of_follow? context hfollow
    exact ⟨l, hl, hpiece, hkind⟩
  · rintro ⟨l, hl, rfl, hkind⟩
    have hfollow := (follow?_of_locate? hl).1
    exact ⟨⟨level + path.length - 1, path, l.target.piece⟩,
      mem_marks_iff.2 ⟨path, rfl, rfl, hfollow, hkind⟩, rfl, rfl⟩
  · obtain ⟨rest, hpath, hlevel, _⟩ := mem_marks_iff.1 hmark
    rw [List.nil_append] at hpath
    subst hpath
    refine ⟨_, rfl, hlevel, IndexPath.read?_integers mark.path, ?_, ?_, ?_⟩
    · rintro total hpiece
      rw [hpiece]
      rfl
    · rintro row hpiece
      rw [hpiece, ← inlineTexts_eq_map]
      obtain ⟨total, range, text, nested, values, stored⟩ := row
      rfl
    · rintro nodes hpiece
      rw [hpiece]

/-- A vault with a chest in its only repeat. In the chest there are a lid with something that was not
rolled, and a total that no row covers. -/
def sealedVault : Node :=
  .bundle ⟨.toPath "/vault", ⟨"/vault", "Vault", [.toPath "/chest"]⟩,
    [[.table ⟨.toPath "/chest", ⟨"/chest", "Chest", .dice 1 6 false, [], .empty, none⟩,
      [.found ⟨2, .single 2, [.plain "a lid"], [.leaf (.toPath "/gem") "/gem"], .empty, .empty⟩,
        .missing 6],
      [.plain "dusty"], [], []⟩]]⟩

/-- The outline of the vault shows a repeat and two rows, and the last of its paths leads to the
second row of the chest. -/
theorem sealedVault_outline :
    sealedVault.outline 0 = Text.joinWith "\n" ["Vault", "  [0]", "    Chest",
        "      [0, 0, 0] (2) a lid", "        /gem (not rolled)", "      [0, 0, 1] (no row for 6)",
        "      dusty"] ∧
      ((sealedVault.lines 0 []).map OutlineLine.text).filterMap IndexPath.ofLine? =
        [[0], [0, 0, 0], [0, 0, 1]] ∧
      ∃ l, sealedVault.locate? .root [0, 0, 1] = some l ∧ l.target.piece = .row (.missing 6) := by
  obtain ⟨-, -, hplaces, -, -, hpaths⟩ := sealedVault.outline_marks 0 .root
  have hmark : ⟨2, [0, 0, 1], .row (.missing 6)⟩ ∈ sealedVault.marks 0 [] :=
    .tail _ (.tail _ (.head _))
  obtain ⟨l, hl, hpiece, -⟩ := (hplaces [0, 0, 1] (.row (.missing 6))).1 ⟨_, hmark, rfl, rfl⟩
  exact ⟨by decide +kernel, (hpaths (by decide +kernel)).trans rfl, l, hl, hpiece⟩

end RandomTables
