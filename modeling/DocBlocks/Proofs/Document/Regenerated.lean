import DocBlocks.Proofs.Document.Steady
import DocBlocks.Proofs.Document.Written
import DocBlocks.Proofs.Generator.Binding

/-! The blocks that a pass writes anew, and what it writes them with. A block that was written anew is
written the same way when it is read again. -/
namespace DocBlocks.BoundBlock

variable {plugin : Plugin} {g : CommentGrammar} {block : Block} {target : BoundBlock}

theorem bindOk : (bind plugin g block).1 = .ok target ↔
    ∃ generator after, plugin.bind.run (.ofArguments block.command (.parse block.arguments)) =
        .ok (generator,after) ∧
      target = ⟨block,after.declared,generator,g⟩ := by
  have supplied : (Arguments.parseNoticed block.arguments).1 = .parse block.arguments := rfl
  unfold bind
  dsimp only
  rw [supplied]
  split
  · rename_i generator after run
    rw [run]
    constructor
    · intro same
      exact ⟨generator,after,rfl,(Except.ok.inj same).symm⟩
    · rintro ⟨_,_,same,rfl⟩
      cases same
      rfl
  · rename_i e run
    rw [run]
    constructor
    · intro same
      cases same
    · rintro ⟨_,_,same,_⟩
      cases same

end DocBlocks.BoundBlock

namespace DocBlocks.Fragment
open Work

variable {g : CommentGrammar} {block : Block} {s : Session} {target : BoundBlock}

theorem ofBlockRun (g : CommentGrammar) (block : Block) (s : Session) :
    ((ofBlock g block).run s).1 =
      if block.isReserved then kept block .reserved
      else if block.closing.isNone then kept block .unclosed
      else
        match s.registry.lookup block.command with
        | .error e => kept block (.unresolved e.message)
        | .ok plugin =>
            match (BoundBlock.bind plugin g block).1 with
            | .ok target => bound target
            | .error e => kept block (.failed e.message) := by
  unfold ofBlock
  rw [notifyRun]
  split
  · rfl
  split
  · rfl
  rw [bindRun, resolveResult]
  cases s.registry.lookup block.command with
  | error e => rfl
  | ok plugin =>
      dsimp only
      cases BoundBlock.bind plugin g block with
      | mk result notices =>
          rw [notifyRun]
          cases result <;> rfl

theorem ofBlockFound :
    ((ofBlock g block).run s).1 = .bound target ↔
      block.isReserved = false ∧ block.closing.isSome = true ∧
      ∃ plugin, s.registry.lookup block.command = .ok plugin ∧
        (BoundBlock.bind plugin g block).1 = .ok target := by
  rw [ofBlockRun]
  cases block.isReserved with
  | true => simp
  | false =>
  cases block.closing with
  | none => simp
  | some closing =>
  cases s.registry.lookup block.command with
  | error e => simp
  | ok plugin => cases outcome : (BoundBlock.bind plugin g block).1 <;> simp [outcome]

theorem ofBlockBound :
    ((ofBlock g block).run s).1 = .bound target ↔
      block.isReserved = false ∧ block.closing.isSome = true ∧
      ∃ plugin generator after, s.registry.lookup block.command = .ok plugin ∧
        plugin.bind.run (.ofArguments block.command (.parse block.arguments)) =
          .ok (generator,after) ∧
        target = ⟨block,after.declared,generator,g⟩ := by
  rw [ofBlockFound]
  constructor
  · rintro ⟨free,closed,plugin,found,bound⟩
    obtain ⟨generator,after,run,same⟩ := BoundBlock.bindOk.mp bound
    exact ⟨free,closed,plugin,generator,after,found,run,same⟩
  · rintro ⟨free,closed,plugin,generator,after,found,run,same⟩
    exact ⟨free,closed,plugin,found,BoundBlock.bindOk.mpr ⟨generator,after,run,same⟩⟩

theorem ofBlockEither (g : CommentGrammar) (block : Block) (s : Session) :
    (∃ status, status ≠ .generated ∧ ((ofBlock g block).run s).1 = .kept block status) ∨
      ∃ target, ((ofBlock g block).run s).1 = .bound target ∧ target.block = block := by
  rw [ofBlockRun]
  split
  · exact .inl ⟨.reserved,nofun,rfl⟩
  split
  · exact .inl ⟨.unclosed,nofun,rfl⟩
  cases s.registry.lookup block.command with
  | error e => exact .inl ⟨.unresolved e.message,nofun,rfl⟩
  | ok plugin =>
      cases bound : (BoundBlock.bind plugin g block).1 with
      | error e => exact .inl ⟨.failed e.message,nofun,by simp only [bound]⟩
      | ok target =>
          obtain ⟨_,_,_,same⟩ := BoundBlock.bindOk.mp bound
          exact .inr ⟨target,by simp only [bound],by rw [same]⟩

theorem ofBlockKept (others : ∀ target, ((ofBlock g block).run s).1 ≠ .bound target) :
    ∃ status, ((ofBlock g block).run s).1 = .kept block status := by
  rcases ofBlockEither g block s with ⟨status,_,kept⟩ | ⟨target,bound,_⟩
  · exact ⟨status,kept⟩
  · exact absurd bound (others target)

end DocBlocks.Fragment

namespace DocBlocks.Document
open Work CommentGrammar

variable {d : Document} {files : Files} {w : Workspace} {s : Session} {block block' : Block}
  {a : Arguments} {body : String}

theorem renderBodyResult (d : Document) (files : Files) (w : Workspace) (target : BoundBlock)
    (s : Session) : ((d.renderBody files w target).run s).1 =
      (target.generator ⟨files,w,d,target.block⟩).run.answered (s.answers files) :=
  answerResult files _ s

def regenerated? (d : Document) (files : Files) (w : Workspace) (s : Session) (block : Block) :
    Option (Arguments × String) :=
  match ((Fragment.ofBlock d.grammar block).run s).1 with
  | .bound target =>
      match ((d.renderBody files w target).run s).1 with
      | .ok body => some (target.arguments,body)
      | .error _ => none
  | _ => none

theorem regeneratedBound : d.regenerated? files w s block = some (a,body) ↔
    ∃ target, ((Fragment.ofBlock d.grammar block).run s).1 = .bound target ∧
      ((d.renderBody files w target).run s).1 = .ok body ∧ target.arguments = a := by
  unfold regenerated?
  split
  · rename_i target bound
    rw [bound]
    cases outcome : ((d.renderBody files w target).run s).1 <;> simp [outcome, and_comm]
  · rename_i others
    constructor
    · intro same
      cases same
    · rintro ⟨target,bound,_⟩
      exact absurd bound (others target)

theorem regeneratedIff : d.regenerated? files w s block = some (a,body) ↔
    block.isReserved = false ∧ block.closing.isSome = true ∧
      ∃ plugin generator after, s.registry.lookup block.command = .ok plugin ∧
        plugin.bind.run (.ofArguments block.command (.parse block.arguments)) =
          .ok (generator,after) ∧
        (generator ⟨files,w,d,block⟩).run.answered (s.answers files) = .ok body ∧
        after.declared = a := by
  rw [regeneratedBound]
  constructor
  · rintro ⟨target,bound,rendered,rfl⟩
    obtain ⟨free,closed,plugin,generator,after,found,run,rfl⟩ := Fragment.ofBlockBound.mp bound
    rw [renderBodyResult] at rendered
    exact ⟨free,closed,plugin,generator,after,found,run,rendered,rfl⟩
  · rintro ⟨free,closed,plugin,generator,after,found,run,rendered,rfl⟩
    refine ⟨_,Fragment.ofBlockBound.mpr ⟨free,closed,plugin,generator,after,found,run,rfl⟩,?_,rfl⟩
    rw [renderBodyResult]
    exact rendered

theorem renderBound (d : Document) (files : Files) (w : Workspace) (text : List Char)
    (target : BoundBlock) (s : Session) :
    ((d.render files w text (.bound target)).run s).1 =
      match ((d.renderBody files w target).run s).1 with
      | .ok body => ⟨(target.entry body).toList,some (.ok ())⟩
      | .error e => ⟨(Fragment.bound target).original text,some (.error e)⟩ := by
  unfold render
  rw [bindRun]
  cases ((d.renderBody files w target).run s).1 with
  | ok body => simp only [pureRun]
  | error e => simp only [notifyRun, pureRun]

theorem renderNew {text : List Char} (kind : d.grammar = markdown)
    (new : d.regenerated? files w s block = some (a,body)) :
    ((d.render files w text ((Fragment.ofBlock d.grammar block).run s).1).run s).1.text =
      Tag.entryText block.command.toList a.written body.toList := by
  obtain ⟨target,bound,rendered,rfl⟩ := regeneratedBound.mp new
  obtain ⟨_,_,plugin,generator,after,_,_,rfl⟩ := Fragment.ofBlockBound.mp bound
  rw [bound, renderBound, rendered]
  dsimp only
  exact Tag.entryWritten body kind

theorem renderKept {text : List Char} (stays : d.regenerated? files w s block = none) :
    ((d.render files w text ((Fragment.ofBlock d.grammar block).run s).1).run s).1.text =
      Text.slice block.span.start.offset block.span.stop.offset text := by
  by_cases some : ∃ target, ((Fragment.ofBlock d.grammar block).run s).1 = .bound target
  · obtain ⟨target,bound⟩ := some
    obtain ⟨_,_,plugin,generator,after,_,_,rfl⟩ := Fragment.ofBlockBound.mp bound
    rw [bound, renderBound]
    cases outcome : ((d.renderBody files w ⟨block,after.declared,generator,d.grammar⟩).run s).1 with
    | ok body =>
        rw [regeneratedBound.mpr ⟨_,bound,outcome,rfl⟩] at stays
        cases stays
    | error e => rfl
  · obtain ⟨status,kept⟩ := Fragment.ofBlockKept fun target bound => some ⟨target,bound⟩
    rw [kept]
    rfl

theorem lookupRegistered {r : Registry} {command : String} {plugin : Plugin}
    (found : r.lookup command = .ok plugin) :
    isValidCommand command = true ∧ plugin ∈ r.registered command := by
  unfold Registry.lookup at found
  split at found
  · rename_i valid
    refine ⟨valid,?_⟩
    split at found
    · cases found
    · rename_i one same
      cases found
      rw [same]
      exact List.mem_singleton_self _
    · cases found
  · cases found

theorem lookupMember {r : Registry} {command : String} {plugin : Plugin}
    (found : r.lookup command = .ok plugin) :
    isValidCommand command = true ∧ plugin ∈ r.plugins := by
  obtain ⟨valid,member⟩ := lookupRegistered found
  exact ⟨valid,(List.mem_filter.mp member).1⟩

theorem regeneratedSame (fixed : ∀ plugin ∈ s.registry.plugins, plugin.Fixed)
    (command : block'.command = block.command) (arguments : block'.arguments = block.arguments)
    (closed : block'.closing.isSome = block.closing.isSome) :
    d.regenerated? files w s block' = d.regenerated? files w s block := by
  have alike : ∀ pair, d.regenerated? files w s block' = some pair ↔
      d.regenerated? files w s block = some pair := by
    rintro ⟨a,body⟩
    rw [regeneratedIff, regeneratedIff, Block.isReserved, Block.isReserved, command, arguments, closed]
    have steps : ∀ plugin generator after,
        s.registry.lookup block.command = .ok plugin →
        plugin.bind.run (.ofArguments block.command (.parse block.arguments)) =
          .ok (generator,after) →
        generator ⟨files,w,d,block'⟩ = generator ⟨files,w,d,block⟩ := by
      intro plugin generator after found run
      obtain ⟨names,names'⟩ := fixed plugin (lookupMember found).2
      exact Reading.readPlaceless names'.reads run ⟨files,w,d,block⟩ block'
    constructor
    · rintro ⟨free,closed,plugin,generator,after,found,run,rendered,same⟩
      rw [steps plugin generator after found run] at rendered
      exact ⟨free,closed,plugin,generator,after,found,run,rendered,same⟩
    · rintro ⟨free,closed,plugin,generator,after,found,run,rendered,same⟩
      rw [← steps plugin generator after found run] at rendered
      exact ⟨free,closed,plugin,generator,after,found,run,rendered,same⟩
  exact Option.ext alike

structure TagSafe (a : Arguments) (body : String) : Prop where
  floatFree : a.FloatFree
  keyed : ∀ name value, (name,value) ∈ a.entries → value.Keyed
  closers : Delimiter.Free Tag.closer a.toSource.toList
  openers : Delimiter.Free Tag.opener body.toList

theorem regeneratedSourced (fixed : ∀ plugin ∈ s.registry.plugins, plugin.Fixed)
    (new : d.regenerated? files w s block = some (a,body))
    (keyed : ∀ name value, (name,value) ∈ a.entries → value.Keyed) : a.Sourced := by
  obtain ⟨_,_,plugin,generator,after,found,run,_,rfl⟩ := regeneratedIff.mp new
  obtain ⟨names,names'⟩ := fixed plugin (lookupMember found).2
  obtain ⟨named,distinct⟩ := Plugin.boundNamed names' run
  exact ⟨fun name value member => named name (List.mem_map_of_mem member),distinct,keyed⟩

theorem regeneratedAgain (fixed : ∀ plugin ∈ s.registry.plugins, plugin.Fixed)
    (new : d.regenerated? files w s block = some (a,body)) (safe : TagSafe a body)
    (command : block'.command = block.command)
    (arguments : block'.arguments = String.ofList a.written)
    (closed : block'.closing.isSome = true) :
    d.regenerated? files w s block' = some (a,body) := by
  have sourced := regeneratedSourced fixed new safe.keyed
  obtain ⟨free,_,plugin,generator,after,found,run,rendered,rfl⟩ := regeneratedIff.mp new
  obtain ⟨names,names'⟩ := fixed plugin (lookupMember found).2
  have parsed : Arguments.parse block'.arguments = after.declared := by
    rw [Arguments.parse, arguments, Arguments.parseRaw sourced]
    exact Arguments.floatFreeReread safe.floatFree
  obtain ⟨after',run',same⟩ := Plugin.bindAgain names' run
  refine regeneratedIff.mpr ⟨?_,closed,plugin,generator,after',?_,?_,?_,same⟩
  · rw [Block.isReserved, command]
    exact free
  · rw [command, found]
  · rw [command, parsed, run']
  · rw [← rendered]
    exact congrArg _ (Reading.readPlaceless names'.reads run ⟨files,w,d,block⟩ block')

theorem regeneratedSafe (fixed : ∀ plugin ∈ s.registry.plugins, plugin.Fixed)
    (new : d.regenerated? files w s block = some (a,body)) (safe : TagSafe a body) :
    Tag.Safe block.command.toList a.written body.toList := by
  have sourced := regeneratedSourced fixed new safe.keyed
  obtain ⟨free,_,plugin,generator,after,found,run,rendered,rfl⟩ := regeneratedIff.mp new
  obtain ⟨filled,chars⟩ := Tag.validCommand (lookupMember found).1
  have named : ∀ name ∈ after.declared.names, Token.IsName name := by
    intro name member
    obtain ⟨⟨_,value⟩,inside,rfl⟩ := List.mem_map.mp member
    exact sourced.named _ value inside
  refine ⟨Tag.writtenOpen filled (fun c member => (chars c member).1) safe.closers,?_,?_,
    Arguments.writtenFenced named,Tag.writtenFree safe.closers,safe.openers⟩
  · rw [Tag.isReserved, String.ofList_toList]
    exact free
  · intro member
    exact (chars _ member).2 rfl

end DocBlocks.Document
