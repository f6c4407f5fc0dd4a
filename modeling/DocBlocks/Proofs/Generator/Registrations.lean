import DocBlocks.Proofs.Document.Steady
import DocBlocks.Proofs.Sorted
import DocBlocks.Proofs.Text.Pieces
import Mathlib.Data.List.Induction

/-! A registry along calls on it. What a look-up finds depends on the registrations before it alone;
that its failure was reported is remembered, and never shows in what is found. What is told of all
plugins does not depend on an order of the commands. -/
namespace DocBlocks

def IsIdentifier (part : List Char) : Prop :=
  ∃ first rest, part = first :: rest ∧ isCommandStart first = true ∧ ∀ c ∈ rest, isCommandPart c = true

def IsDotted (command : String) : Prop :=
  ∃ parts : List (List Char), parts ≠ [] ∧ command.toList = Text.joined ['.'] parts ∧
    ∀ part ∈ parts, IsIdentifier part

theorem identifierPlain {part : List Char} (identifier : IsIdentifier part) :
    ∀ c ∈ part, (c == '.') = false := by
  obtain ⟨first,rest,rfl,start,parts⟩ := identifier
  intro c member
  refine beq_eq_false_iff_ne.mpr ?_
  rintro rfl
  rcases List.mem_cons.mp member with rfl | later
  · exact absurd start (by decide)
  · exact absurd (parts '.' later) (by decide)

theorem validIff {command : String} : isValidCommand command = true ↔ IsDotted command := by
  rw [isValidCommand, List.all_eq_true]
  constructor
  · intro all
    obtain ⟨first,rest,whole,_⟩ := Text.piecesGo (· == '.') [] command.toList
    refine ⟨_,by rw [whole]; exact List.cons_ne_nil _ _,
      (Text.joinedPieces (fun d => beq_iff_eq.mp) command.toList).symm,fun part member => ?_⟩
    have here := all part member
    cases part with
    | nil => cases here
    | cons first rest =>
        obtain ⟨start,parts⟩ := Bool.and_eq_true_iff.mp here
        exact ⟨first,rest,rfl,start,List.all_eq_true.mp parts⟩
  · rintro ⟨parts,filled,whole,each⟩ part member
    rw [whole, Text.piecesJoined rfl filled fun part inside => identifierPlain (each part inside)] at member
    obtain ⟨first,rest,rfl,start,others⟩ := each part member
    exact Bool.and_eq_true_iff.mpr ⟨start,List.all_eq_true.mpr others⟩

namespace Registry

inductive Call where
  | register (plugin : Plugin)
  | resolve (command : String)

def call (r : Registry) : Call → Registry
  | .register plugin => (r.register plugin).1
  | .resolve command => (r.resolve command).2.1

def after (calls : List Call) : Registry := calls.foldl call empty

def registrations (calls : List Call) : List Plugin :=
  calls.filterMap fun
    | .register plugin => some plugin
    | .resolve _ => none

def accepted (calls : List Call) : List Plugin :=
  (registrations calls).filter fun plugin => isValidCommand plugin.info.command

def under (calls : List Call) (command : String) : List Plugin :=
  (registrations calls).filter (·.info.command == command)

def Missed (calls : List Call) (command : String) : Prop :=
  ∃ earlier later e, calls = earlier ++ .resolve command :: later ∧
    ((after earlier).resolve command).1 = .error e

def said (command : String) : Registry → List Call → List Notice
  | _, [] => []
  | r, .register plugin :: rest => said command (r.call (.register plugin)) rest
  | r, .resolve other :: rest =>
      (if other = command then (r.resolve other).2.2 else []) ++
        said command (r.call (.resolve other)) rest

def byCommand (a b : PluginInfo) : Ordering := compare a.command b.command

structure Answers (calls : List Call) (command : String)
    (answer : Except Error Plugin × Registry × List Notice) : Prop where
  invalid : ¬ IsDotted command → answer.1 = .error (.invalidCommand command)
  unknown : IsDotted command → (under calls command).length = 0 →
    answer.1 = .error (.unknownGenerator command)
  single : IsDotted command → ∀ plugin, under calls command = [plugin] → answer.1 = .ok plugin
  several : IsDotted command → 2 ≤ (under calls command).length →
    answer.1 = .error (.ambiguousGenerator command (under calls command).length)
  reported : ∀ e, answer.1 = .error e → ¬ Missed calls command → answer.2.2 = [lookupNotice e]
  quiet : (∃ plugin, answer.1 = .ok plugin) ∨ Missed calls command → answer.2.2 = []

structure Shows (calls : List Call) (r : Registry) : Prop where
  size : r.size = (accepted calls).length
  filled : r.isEmpty = true ↔ r.size = 0
  commands : r.commands.Pairwise fun a b => compare a b = .lt
  listed : ∀ command, command ∈ r.commands ↔ ∃ plugin ∈ accepted calls, plugin.info.command = command
  contains : ∀ command, r.contains command = true ↔ command ∈ r.commands
  infos : Sorted.StablySorted byCommand ((accepted calls).map (·.info)) r.infos
  anyOrder : ∀ commands : List String, commands.Perm r.commands →
    Sorted.ofList byCommand (commands.flatMap fun command => (r.registered command).map (·.info)) =
      r.infos
  refused : ∀ plugin, ¬ IsDotted plugin.info.command → r.call (.register plugin) = r

instance : Std.TransCmp byCommand := inferInstanceAs (Std.TransCmp (compareOn PluginInfo.command))

variable {calls : List Call} {command : String} {r : Registry}

theorem afterCall (calls : List Call) (c : Call) : after (calls ++ [c]) = (after calls).call c :=
  List.foldl_concat ..

theorem refusedSame {plugin : Plugin} (invalid : ¬ IsDotted plugin.info.command) :
    r.call (.register plugin) = r := by
  rw [call, register, if_neg (fun valid => invalid (validIff.mp valid))]

theorem pluginsAfter (calls : List Call) : (after calls).plugins = accepted calls := by
  induction calls using List.reverseRecOn with
  | nil => rfl
  | append_singleton calls c ih =>
      rw [afterCall, accepted, registrations, List.filterMap_append, List.filter_append, ← registrations,
        ← accepted, ← ih]
      cases c with
      | register plugin =>
          rw [call, register]
          by_cases valid : isValidCommand plugin.info.command = true
          · rw [if_pos valid]
            simp [valid]
          · rw [if_neg valid]
            simp [valid]
      | resolve command => simp [call, (Work.resolveRegistry _ command).2]

theorem registeredAfter (dotted : IsDotted command) :
    (after calls).registered command = under calls command := by
  rw [registered, pluginsAfter, accepted, List.filter_filter, under]
  refine List.filter_congr fun plugin _ => ?_
  by_cases same : plugin.info.command = command
  · rw [same, validIff.mpr dotted, Bool.and_true]
  · rw [beq_false_of_ne same, Bool.false_and]

theorem missedCall (c : Call) : Missed (calls ++ [c]) command ↔
    Missed calls command ∨ c = .resolve command ∧ ∃ e, ((after calls).resolve command).1 = .error e := by
  constructor
  · rintro ⟨earlier,later,e,whole,failed⟩
    rcases List.eq_nil_or_concat later with rfl | ⟨later,last,rfl⟩
    · obtain ⟨rfl,one⟩ := List.append_inj' whole rfl
      exact .inr ⟨(List.cons.inj one).1,e,failed⟩
    · rw [List.concat_eq_append, ← List.cons_append, ← List.append_assoc] at whole
      exact .inl ⟨earlier,later,e,(List.append_inj' whole rfl).1,failed⟩
  · rintro (⟨earlier,later,e,rfl,failed⟩ | ⟨rfl,e,failed⟩)
    · exact ⟨earlier,later ++ [c],e,by simp,failed⟩
    · exact ⟨calls,[],e,rfl,failed⟩

theorem reportedCall (r : Registry) (c : Call) : command ∈ (r.call c).reported ↔
    command ∈ r.reported ∨ c = .resolve command ∧ ∃ e, (r.resolve command).1 = .error e := by
  cases c with
  | register plugin =>
      rw [call, register]
      split <;> simp
  | resolve other =>
      rw [call, resolve]
      split
      · rename_i plugin found
        constructor
        · exact .inl
        · rintro (old | ⟨same,e,failed⟩)
          · exact old
          · cases same
            rw [(Work.resolveRegistry r command).1, found] at failed
            cases failed
      · rename_i e missing
        have failed : (r.resolve other).1 = .error e := by
          rw [(Work.resolveRegistry r other).1, missing]
        split
        · rename_i known
          constructor
          · exact .inl
          · rintro (old | ⟨same,_⟩)
            · exact old
            · cases same
              exact List.contains_iff_mem.mp known
        · rw [List.mem_append, List.mem_singleton]
          refine or_congr_right ⟨?_,?_⟩
          · rintro rfl
            exact ⟨rfl,e,failed⟩
          · rintro ⟨same,_⟩
            cases same
            rfl

theorem reportedAfter (calls : List Call) (command : String) :
    command ∈ (after calls).reported ↔ Missed calls command := by
  induction calls using List.reverseRecOn with
  | nil =>
      constructor
      · nofun
      · rintro ⟨earlier,later,e,whole,_⟩
        cases earlier <;> cases whole
  | append_singleton calls c ih => rw [afterCall, reportedCall, ih, missedCall]

theorem noticesFailed {e : Error} (failed : (r.resolve command).1 = .error e) :
    (r.resolve command).2.2 = if command ∈ r.reported then [] else [lookupNotice e] := by
  rw [(Work.resolveRegistry r command).1] at failed
  rw [resolve, failed]
  dsimp only
  by_cases known : command ∈ r.reported
  · rw [if_pos (List.contains_iff_mem.mpr known), if_pos known]
  · rw [if_neg (mt List.contains_iff_mem.mp known), if_neg known]

theorem noticesFound {plugin : Plugin} (found : (r.resolve command).1 = .ok plugin) :
    (r.resolve command).2.2 = [] := by
  rw [(Work.resolveRegistry r command).1] at found
  rw [resolve, found]

theorem answersAfter (calls : List Call) (command : String) :
    Answers calls command ((after calls).resolve command) := by
  have same := (Work.resolveRegistry (after calls) command).1
  have found (dotted : IsDotted command) {plugins : List Plugin} (all : under calls command = plugins) :
      (after calls).registered command = plugins := (registeredAfter dotted).trans all
  constructor
  case invalid =>
    intro other
    rw [same, lookup, if_neg fun valid => other (validIff.mp valid)]
  case unknown =>
    intro dotted none
    rw [same, lookup, if_pos (validIff.mpr dotted), found dotted (List.length_eq_zero_iff.mp none)]
  case single =>
    intro dotted plugin one
    rw [same, lookup, if_pos (validIff.mpr dotted), found dotted one]
  case several =>
    intro dotted many
    rw [same, lookup, if_pos (validIff.mpr dotted)]
    match all : under calls command with
    | [] | [_] => simp [all] at many
    | _ :: _ :: _ => rw [found dotted all]
  case reported =>
    intro e failed first
    rw [noticesFailed failed, if_neg (mt (reportedAfter calls command).mp first)]
  case quiet =>
    rintro (⟨plugin,found⟩ | known)
    · exact noticesFound found
    · cases answer : ((after calls).resolve command).1 with
      | ok plugin => exact noticesFound answer
      | error e => rw [noticesFailed answer, if_pos ((reportedAfter calls command).mpr known)]

theorem saidBound (command : String) (r : Registry) (calls : List Call) :
    (said command r calls).length ≤ if command ∈ r.reported then 0 else 1 := by
  -- a look-up that reports adds the command to those that are not reported again
  induction calls generalizing r with
  | nil => exact Nat.zero_le _
  | cons c rest ih =>
      have later := ih (r.call c)
      cases c with
      | register plugin =>
          have kept : command ∈ (r.call (.register plugin)).reported ↔ command ∈ r.reported := by
            simp [reportedCall]
          rw [said]
          simpa only [kept] using later
      | resolve other =>
          rw [said, List.length_append]
          by_cases same : other = command
          · subst same
            rw [if_pos rfl]
            cases answer : (r.resolve other).1 with
            | ok plugin =>
                have kept : other ∈ (r.call (.resolve other)).reported ↔ other ∈ r.reported := by
                  simp [reportedCall, answer]
                rw [noticesFound answer]
                simpa [kept] using later
            | error e =>
                have kept : other ∈ (r.call (.resolve other)).reported := by
                  simp [reportedCall, answer]
                rw [if_pos kept] at later
                rw [noticesFailed answer]
                split
                · simpa using later
                · rw [List.length_singleton]
                  omega
          · have kept : command ∈ (r.call (.resolve other)).reported ↔ command ∈ r.reported := by
              simp [reportedCall, same]
            rw [if_neg same]
            simpa [kept] using later

theorem commandsPut (r : Registry) :
    r.commands = Sorted.putAll compare (r.plugins.map (·.info.command)) [] := by
  rw [commands, Sorted.putAll, List.foldl_map]

theorem commandListed : command ∈ r.commands ↔ ∃ plugin ∈ r.plugins, plugin.info.command = command := by
  rw [commandsPut, Sorted.putAllIff]
  simp

theorem commandsStrict (r : Registry) : r.commands.Pairwise fun a b => compare a b = .lt := by
  rw [commandsPut]
  exact Sorted.putAllStrict _ .nil

theorem flatMapOne {α : Type} (command : String) {commands : List String} (distinct : commands.Nodup) {f : String → List α}
    (others : ∀ other ∈ commands, other ≠ command → f other = []) :
    commands.flatMap f = if command ∈ commands then f command else [] := by
  induction commands with
  | nil => rfl
  | cons first rest ih =>
      obtain ⟨fresh,distinct⟩ := List.nodup_cons.mp distinct
      rw [List.flatMap_cons, ih distinct fun other member => others other (List.mem_cons_of_mem _ member)]
      by_cases same : first = command
      · subst same
        rw [if_neg fresh, if_pos List.mem_cons_self, List.append_nil]
      · rw [others first List.mem_cons_self same, List.nil_append]
        simp [Ne.symm same]

theorem levelCommand (info other : PluginInfo) :
    Sorted.level byCommand info other = (other.command == info.command) := by
  rw [Sorted.level, byCommand, Bool.eq_iff_iff, beq_iff_eq, beq_iff_eq, Std.LawfulEqOrd.compare_eq_iff_eq,
    eq_comm]

/- Whatever the order of the commands, the plugins of one command come in the order in which they were
registered. -/
theorem groupLevel (info : PluginInfo) {commands : List String} (all : commands.Perm r.commands) :
    (commands.flatMap fun command => (r.registered command).map (·.info)).filter
        (Sorted.level byCommand info) =
      (r.plugins.map (·.info)).filter (Sorted.level byCommand info) := by
  have distinct : commands.Nodup := by
    refine all.nodup_iff.mpr ((commandsStrict r).imp fun before same => ?_)
    rw [same, Std.ReflOrd.compare_self] at before
    cases before
  have group (command : String) : ((r.registered command).map (·.info)).filter
        (Sorted.level byCommand info) =
      if command = info.command then (r.plugins.map (·.info)).filter (Sorted.level byCommand info)
      else [] := by
    rw [registered, List.filter_map, List.filter_map, List.filter_filter]
    split
    · rename_i same
      refine congrArg _ (List.filter_congr fun plugin _ => ?_)
      simp [levelCommand, same]
    · rename_i other
      rw [List.map_eq_nil_iff, List.filter_eq_nil_iff]
      intro plugin _ both
      simp only [Function.comp, levelCommand, Bool.and_eq_true, beq_iff_eq] at both
      exact other (both.2.symm.trans both.1)
  rw [List.filter_flatMap, flatMapOne info.command distinct fun other _ apart => by
    rw [group, if_neg apart]]
  split
  · rw [group, if_pos rfl]
  · rename_i missing
    refine (List.filter_eq_nil_iff.mpr fun other member same => missing ?_).symm
    obtain ⟨plugin,inside,rfl⟩ := List.mem_map.mp member
    rw [levelCommand] at same
    exact all.mem_iff.mpr (commandListed.mpr ⟨plugin,inside,beq_iff_eq.mp same⟩)

theorem showsAfter (calls : List Call) : Shows calls (after calls) := by
  have plugins := pluginsAfter calls
  constructor
  case size => rw [size, plugins]
  case filled => rw [isEmpty, size, List.isEmpty_iff, List.length_eq_zero_iff]
  case commands => exact commandsStrict _
  case listed =>
    intro command
    rw [commandListed, plugins]
  case contains =>
    intro command
    rw [contains, List.any_eq_true, commandListed]
    simp only [beq_iff_eq]
  case infos =>
    rw [infos, plugins]
    exact Sorted.ofListStable byCommand _
  case anyOrder =>
    intro commands all
    refine Sorted.inOrderSame (Sorted.ofListInOrder byCommand _) (Sorted.ofListInOrder byCommand _)
      fun info => ?_
    rw [Sorted.ofListFilter, groupLevel info all]
    exact (Sorted.ofListFilter byCommand _ info).symm
  case refused => exact fun plugin invalid => refusedSame invalid

/- After any calls the registry shows the accepted registrations, a look-up is answered by them, and of
no command more than one failure was reported. -/
theorem registryAfterCalls (calls : List Call) :
    Shows calls (after calls) ∧ ∀ command, Answers calls command ((after calls).resolve command) ∧
      (said command empty calls).length ≤ 1 := by
  refine ⟨showsAfter calls,fun command => ⟨answersAfter calls command,?_⟩⟩
  exact saidBound command empty calls

end Registry

end DocBlocks
