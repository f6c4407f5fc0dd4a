import DocBlocks.Proofs.Arguments.Splitting
import DocBlocks.Proofs.Builtin.Rendering
import DocBlocks.Proofs.Document.Steady
import DocBlocks.Proofs.Markdown.Table
import DocBlocks.Proofs.Workspace.Listing

/-! The table of contents has a row for each directory that is listed, in the order of their paths. Each
row is one line, save where a line feed stands in the name of the directory or in its title. -/
namespace DocBlocks.Contents
open Inquiry (bindAnswered mapMAnswered)

/-- What may be said of a directory, given the leading arguments of documents: the title in its README,
where there is one that is not null, else a summary of the README, else its name. -/
inductive Describes (c : Context) (leading : Document → Arguments) (d : Directory) : String → Prop
  | unread (none : c.workspace.readme? d.path = none) : Describes c leading d d.name
  | title {readme : Document} {title : Value} (read : c.workspace.readme? d.path = some readme)
      (given : (leading readme).get? "title" = some title) (filled : title ≠ .null) :
      Describes c leading d title.display
  | summary {readme : Document} {text : String} (read : c.workspace.readme? d.path = some readme)
      (untitled : ∀ title, (leading readme).get? "title" = some title → title = .null)
      (held : c.files.read readme.path = .ok text) :
      Describes c leading d ((Markdown.summary? text.toList).getD d.name)

structure Row where
  directory : Directory
  text : String

namespace Row

def link (r : Row) : String := "[\x60" ++ r.directory.name ++ "\x60](" ++ r.directory.name ++ ")"

def cells (r : Row) : List String := [r.link,r.text]

end Row

def Flat (c : Context) (leading : Document → Arguments) (d : Directory) : Prop :=
  '\n' ∉ d.name.toList ∧ ∀ readme title, c.workspace.readme? d.path = some readme →
    (leading readme).get? "title" = some (.string title) → '\n' ∉ title.toList

variable {c : Context} {leading : Document → Arguments} {d directory : Directory} {r : Row}
  {header path text body : String} {results : List (List String)} {ds : List Directory}

theorem describeAnswered (described : (describe c d).run.answered leading = .ok text) :
    Describes c leading d text := by
  unfold describe at described
  cases read : c.workspace.readme? d.path with
  | none =>
      rw [read] at described
      cases described
      exact .unread read
  | some readme =>
      rw [read, bindAnswered, okBind] at described
      obtain ⟨arguments,asked,described⟩ := described
      cases asked
      split at described
      case h_3 title filled given =>
        cases described
        exact .title read given filled
      all_goals
        rename_i given
        cases held : c.files.read readme.path with
        | ok text =>
            rw [held] at described
            cases described
            refine .summary read (fun title there => ?_) held
            cases given.symm.trans there <;> rfl
        | error e =>
            rw [held] at described
            cases described

theorem rowAnswered {cells : List String} (made : (row c d).run.answered leading = .ok cells) :
    ∃ text, cells = (Row.mk d text).cells ∧ Describes c leading d text := by
  rw [row, bindAnswered, okBind] at made
  obtain ⟨text,described,same⟩ := made
  cases same
  exact ⟨text,rfl,describeAnswered described⟩

theorem rowsAnswered
    (all : List.Forall₂ (fun d cells => (row c d).run.answered leading = .ok cells) ds results) :
    ∃ rows : List Row, results = rows.map Row.cells ∧ rows.map Row.directory = ds ∧
      ∀ r ∈ rows, Describes c leading r.directory r.text := by
  induction all with
  | nil => exact ⟨[],rfl,rfl,nofun⟩
  | cons made _ ih =>
      obtain ⟨text,rfl,told⟩ := rowAnswered made
      obtain ⟨rows,rfl,rfl,each⟩ := ih
      exact ⟨⟨_,text⟩ :: rows,rfl,rfl,List.forall_mem_cons.mpr ⟨told,each⟩⟩

/- A row is on one line unless the name or a title that is a text is not: every other value is written
as a literal, and a summary is one line. -/
theorem rowFlat (told : Describes c leading r.directory r.text) :
    (∀ cell ∈ r.cells, '\n' ∉ cell.toList) ↔ Flat c leading r.directory := by
  have link : '\n' ∉ r.link.toList ↔ '\n' ∉ r.directory.name.toList := by simp [Row.link]
  rw [Row.cells, List.forall_mem_cons, List.forall_mem_singleton, link]
  refine and_congr_right fun named => ?_
  generalize r.text = text at told
  cases told with
  | unread none => exact iff_of_true named fun readme _ read => nomatch none.symm.trans read
  | @title readme title read given filled =>
      constructor
      · intro free readme' title' read' given'
        cases read.symm.trans read'
        cases given.symm.trans given'
        exact free
      · intro flat
        cases title with
        | string title => exact flat readme title read given
        | _ => exact fun feed => ((Statement.inertLiteral _).oneLine _ feed).1 rfl
  | @summary readme text read untitled held =>
      refine iff_of_true ?_ fun readme' title read' given => ?_
      · cases found : Markdown.summary? text.toList with
        | none => exact named
        | some summary => exact Markdown.summaryHolds found
      · cases read.symm.trans read'
        cases untitled _ given

def rowed (w : Workspace) (directory : Directory) : List Directory :=
  (directory.directories.filterMap w.directory?).filter fun d =>
    d.name.toList.head? ∉ [some '.',some '_']

theorem listedRowed (w : Workspace) (directory : Directory) : listed w directory = rowed w directory := by
  refine List.filter_congr fun d _ => ?_
  rw [Bool.eq_iff_iff]
  simp [isListed]

theorem renderAnswered (found : c.workspace.directory? (c.resolve path) = some directory)
    (rendered : (render header path c).run.answered leading = .ok body) :
    ∃ rows : List Row, rows.map Row.directory = rowed c.workspace directory ∧
      (∀ r ∈ rows, Describes c leading r.directory r.text) ∧
      body = header ++ "\n\n" ++ Markdown.table columns (rows.map Row.cells) := by
  unfold render at rendered
  dsimp only at rendered
  rw [found] at rendered
  dsimp only at rendered
  rw [bindAnswered, okBind] at rendered
  obtain ⟨results,all,same⟩ := rendered
  obtain ⟨rows,rfl,directories,each⟩ := rowsAnswered (mapMAnswered all)
  refine ⟨rows,directories.trans (listedRowed _ _),each,?_⟩
  cases same
  rfl

/-- Holds of the rows, the table and the widths of the columns that a body shows of a directory. It has
two lines and one for each row just when every row stands for a flat directory. -/
structure Tabulates (c : Context) (leading : Document → Arguments) (header : String) (directory : Directory)
    (body : String) (rows : List Row) (table : List Char) (widths : List Nat) : Prop where
  listed : rows.map Row.directory = rowed c.workspace directory
  described : ∀ r ∈ rows, Describes c leading r.directory r.text
  inOrder : ∀ files : Files, files.Ordered → files.Named → c.workspace.Scanned files →
    rows.Pairwise fun a b => a.directory.path.order b.directory.path = .lt
  written : body.toList = header.toList ++ '\n' :: '\n' :: table
  columns : widths.length = 2
  counted : (Text.pieces (· == '\n') table).length = 2 + rows.length ↔
    ∀ r ∈ rows, Flat c leading r.directory
  lines : (Text.pieces (· == '\n') table).length = 2 + rows.length →
    Text.pieces (· == '\n') table =
      Markdown.head ["Dir","Content"] widths ++ rows.map fun r => Markdown.line widths r.cells

/- A body is a header, an empty line and a table with a row for each directory that is listed, in the
order of their paths. Just when they are flat, each has one line of its own. -/
theorem rowsOnLines {s : Session} (found : c.workspace.directory? (c.resolve path) = some directory)
    (rendered : ((Work.answer c.files (render header path c).run).run s).1 = .ok body) :
    ∃ rows table widths, Tabulates c (s.answers c.files) header directory body rows table widths := by
  rw [Work.answerResult] at rendered
  obtain ⟨rows,directories,each,same⟩ := renderAnswered found rendered
  have full : ∀ cells ∈ rows.map Row.cells, cells.length = columns.length :=
    List.forall_mem_map.mpr fun _ _ => rfl
  have plain : ∀ column ∈ columns, '\n' ∉ column.toList := by decide
  obtain ⟨counted,parts⟩ := Markdown.tableCut plain full
  rw [List.length_map] at counted parts
  have within : (rowed c.workspace directory).Sublist
    (directory.directories.filterMap c.workspace.directory?) := List.filter_sublist
  refine ⟨rows,(Markdown.table columns (rows.map Row.cells)).toList,
    Markdown.columnWidths columns (rows.map Row.cells),directories,each,?_,?_,
    Markdown.columnsLength full,?_,fun length => ?_⟩
  · intro files ordered named scanned
    have inOrder := (Workspace.scannedInOrder ordered named scanned
      (Workspace.directoryFound found).1).sublist within
    rw [← directories] at inOrder
    exact List.pairwise_map.mp inOrder
  · rw [same, String.toList_append, String.toList_append, List.append_assoc]
    rfl
  · rw [counted, List.forall_mem_map]
    exact forall₂_congr fun r member => rowFlat (each r member)
  · rw [parts length, Markdown.tableParts, List.map_map]
    rfl

def pages (text : String) : Files :=
  ⟨[("a",.directory [("readme.md",.file (.text text) newFileMode)]),("b",.directory [])]⟩

def pagesTop : Directory := ⟨⟨"/"⟩,[],[⟨"/a"⟩,⟨"/b"⟩],none⟩

def pagesContext (text : String) : Context where
  files := pages text
  workspace := ⟨⟨"/"⟩,{},[pagesTop,⟨⟨"/a"⟩,[⟨"/a/readme.md"⟩],[],some ⟨"/a/readme.md"⟩⟩,⟨⟨"/b"⟩,[],[],none⟩],
    [⟨⟨"/a/readme.md"⟩⟩]⟩
  document := ⟨⟨"/index.md"⟩⟩
  block := ⟨command,"",default,none,default⟩

theorem pagesFound (text : String) :
    (pagesContext text).workspace.directory? ((pagesContext text).resolve ".") = some pagesTop := by
  cbv

theorem pagesTree (text : String) : (pages text).root.IsTree := by
  have order : ["a","b"].Pairwise fun a b => compare a b = .lt := by decide
  refine Node.directoryTree order fun name below member => ?_
  rcases List.mem_cons.mp member with same | member
  · cases same
    refine ⟨by decide,Node.directoryTree (List.pairwise_singleton _ _) fun name below member => ?_⟩
    cases List.mem_singleton.mp member
    exact ⟨by decide,Node.fileTree _ _⟩
  · cases List.mem_singleton.mp member
    exact ⟨by decide,Node.directoryTree .nil nofun⟩

def titled : String := "<!-- MD+:META title = \"x|y\" -->\n"

def torn : String := "<!-- MD+:META title = \"x\\ny\" -->\n"

theorem titledScanned : (pagesContext titled).workspace.Scanned (pages titled) := by
  have scanned : (Workspace.scan (pages titled) ⟨"/"⟩ ⟨"/"⟩).1.toOption =
      some (pagesContext titled).workspace := by
    decide +kernel
  exact Workspace.scanScanned (okSome scanned)

theorem titledOnLines :
    let c := pagesContext titled
    let s : Session := .start .empty
    let body := "#\n\n| Dir      | Content |\n| -------- | ------- |\n| [\x60a\x60](a) | x\\|y    |\n| [\x60b\x60](b) | b       |"
    c.workspace.directory? (c.resolve ".") = some pagesTop ∧
      ((Work.answer c.files (render "#" "." c).run).run s).1 = .ok body ∧
      c.files.Ordered ∧ c.files.Named ∧ c.workspace.Scanned c.files ∧
      ∃ rows table widths, Tabulates c (s.answers c.files) "#" pagesTop body rows table widths := by
  intro c s body
  have found : c.workspace.directory? (c.resolve ".") = some pagesTop := pagesFound titled
  have rendered : ((Work.answer c.files (render "#" "." c).run).run s).1 = .ok body := by cbv
  have tree := pagesTree titled
  exact ⟨found,rendered,tree.ordered,tree.named,titledScanned,rowsOnLines found rendered⟩

theorem titleBreaksRow :
    ¬∀ (c : Context) (s : Session) (header path body : String) (directory : Directory) (table : List Char),
      c.workspace.directory? (c.resolve path) = some directory →
      ((Work.answer c.files (render header path c).run).run s).1 = .ok body →
      body.toList = header.toList ++ '\n' :: '\n' :: table →
      (Text.pieces (· == '\n') table).length = 2 + (rowed c.workspace directory).length := by
  intro claim
  have broken := claim (pagesContext torn) (.start .empty) "#" "." _ pagesTop
    "| Dir      | Content |\n| -------- | ------- |\n| [\x60a\x60](a) | x\ny     |\n| [\x60b\x60](b) | b       |".toList
    (pagesFound torn) (by cbv) (by cbv)
  exact absurd broken (by cbv)

end DocBlocks.Contents
