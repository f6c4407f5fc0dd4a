import DocBlocks.Builtin.Registry
import DocBlocks.Document.Session
import DocBlocks.Proofs.Files.Shape
import DocBlocks.Proofs.Generator.Binding
import DocBlocks.Proofs.Generator.Asking

/-! What the builtin generators render depends on the shape of the tree, on the package configurations
and on what is said of the directories that are listed. -/
namespace DocBlocks
open Inquiry Reading

variable {table table' : Document → Arguments}

def Files.leading (files : Files) (d : Document) : Arguments := (Work.readLeading files d).1

namespace Contents

def path? (block : Block) : Option String :=
  OfValue.ofValue? (used "path" (.string ".") (.ofArguments block.command (.parse block.arguments)))

def shown (c : Context) : List Directory :=
  match (path? c.block).bind fun path => c.workspace.directory? (c.resolve path) with
  | some directory => listed c.workspace directory
  | none => []

def said (c : Context) (directory : Directory) : Except Error String :=
  (describe c directory).run.answered c.files.leading

end Contents

namespace GettingStarted

end GettingStarted

def Value.IsFlat : Value → Prop
  | .string _ | .bool _ => True
  | _ => False

namespace Value

variable {value : Value}

end Value

def Arguments.Flat (a : Arguments) : Prop := ∀ name value, (name,value) ∈ a.entries → value.IsFlat

namespace Builtin
open Plugin (headerNamed)
open Token (IsName)

theorem contentsFixed : Contents.plugin.FixedNames ["header","path"] where
  reads := .get fun _ => .get fun _ => .done fun _ _ => rfl
  distinct := by decide
  named name member := by
    rcases List.mem_cons.mp member with rfl | member
    · exact headerNamed
    · rw [List.mem_singleton.mp member]
      exact ⟨'p',"ath".toList,rfl,by decide,List.all_eq_true.mp (by decide)⟩
  header _ := rfl

theorem gettingStartedFixed :
    GettingStarted.plugin.FixedNames ["header","installation","usage"] where
  reads := .get fun _ => .get fun _ => .get fun _ => .done fun _ _ => rfl
  distinct := by decide
  named name member := by
    rcases List.mem_cons.mp member with rfl | member
    · exact headerNamed
    rcases List.mem_cons.mp member with rfl | member
    · exact ⟨'i',"nstallation".toList,rfl,by decide,List.all_eq_true.mp (by decide)⟩
    · rw [List.mem_singleton.mp member]
      exact ⟨'u',"sage".toList,rfl,by decide,List.all_eq_true.mp (by decide)⟩
  header _ := rfl

theorem fixed : ∀ plugin ∈ plugins, plugin.Fixed := by
  intro plugin member
  rcases List.mem_cons.mp member with rfl | member
  · exact ⟨_,contentsFixed⟩
  · rw [List.mem_singleton.mp member]
    exact ⟨_,gettingStartedFixed⟩

theorem registered : registry.plugins = plugins := by
  have contents : isValidCommand Contents.plugin.info.command = true := by decide
  have gettingStarted : isValidCommand GettingStarted.plugin.info.command = true := by decide
  unfold registry plugins Registry.ofPlugins
  simp only [List.foldl_cons, List.foldl_nil, Registry.register, if_pos contents,
    if_pos gettingStarted, Registry.empty, List.nil_append, List.cons_append]

end Builtin

end DocBlocks
