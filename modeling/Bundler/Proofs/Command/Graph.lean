import Bundler.Command.Handlers
import Bundler.Proofs.Compiler.Located
import Bundler.Proofs.Console.Cells
import Bundler.Proofs.Console.Messages
import Bundler.Proofs.Processing.Entries

/-!
# The graph that is printed

Building registers every entry of the configuration under its name, and every module that is an entry
(`Job.registers_build`), so the table has a row for each of them. A row has one place for the name of an
entry, and takes the last one (`entryName_eq_iff`). Its cells are read as markup, so that not every
identity is shown as it is, and what has no room on the console is cut (`graph_of_compiling`).
-/

namespace Bundler

variable {π κ ω : Type}

/-- The entries of a graph have names of their own and are modules in its registry, which is consistent. -/
structure Graph.Registers (graph : Graph) : Prop where
  consistent : graph.Consistent
  nodup : (graph.entries.map (·.1)).Nodup
  recorded : ∀ entry ∈ graph.entries, entry.2 ∈ graph.identities

/-! ### Building -/

theorem Build.registers_start {σ ε : Type} {around : Surroundings σ ε} (hnames : around.NamesModules)
    {graph after : Graph} (h : graph.Registers) {depth : Nat} {name : String} {path : FilePath}
    {identity : Identity} {state last : σ}
    (hok : Attempt.start (Build.start around depth (some name) path) (graph, state)
      = (.ok identity, (after, last))) :
    after.Registers ∧ after.entries = Data.setField name identity graph.entries := by
  have hgraph := consistent_start hnames h.consistent depth (some name) path state
  have hentries := entries_start hnames h.consistent depth (some name) path state
  have hfound := congrArg Prod.fst hok
  have hdone := done_of_start hfound
  rw [ofPath?_of_start hfound, hok] at hentries
  rw [hok] at hgraph hdone
  obtain ⟨hconsistent, hmodules, -⟩ := hgraph
  have hset : after.entries = Data.setField name identity graph.entries := hentries
  refine ⟨⟨hconsistent, ?_, fun entry hentry => ?_⟩, hset⟩
  · rw [hset]
    exact Data.nodup_setField h.nodup
  · rw [hset, Data.mem_setField h.nodup] at hentry
    rcases hentry with rfl | ⟨hmem, -⟩
    · exact (hconsistent.done_iff _).1 hdone
    · exact (hmodules.map (·.1)).subset (h.recorded entry hmem)

namespace Job

variable {compiler after : Compiler π κ ω} {world last : World ω}

theorem registers_buildEntry (h : compiler.graph.Registers) {name : String} {path : FilePath}
    {identity : Identity}
    (hok : (buildEntry name path).start (compiler, world) = (.ok identity, (after, last))) :
    after.config = compiler.config ∧ after.graph.Registers ∧
      after.graph.entries = Data.setField name identity compiler.graph.entries := by
  rw [start_buildEntry, Processing.start_build] at hok
  obtain ⟨hfound, hstate⟩ := Prod.mk.inj hok
  obtain ⟨rfl, rfl⟩ := Prod.mk.inj hstate
  exact ⟨rfl, Build.registers_start Processing.namesModules_surroundings h (Prod.ext hfound rfl)⟩

theorem registers_compile (h : compiler.graph.Registers) {paths : List (String × FilePath)}
    (hok : (compile paths).start (compiler, world) = (.ok (), (after, last))) :
    after.config = compiler.config ∧ after.graph.Registers ∧
      ∀ name, name ∈ after.graph.entries.map (·.1) ↔
        name ∈ compiler.graph.entries.map (·.1) ∨ name ∈ paths.map (·.1) := by
  induction paths generalizing compiler world with
  | nil =>
    cases hok
    simp [h]
  | cons path rest ih =>
    obtain ⟨name, path⟩ := path
    rw [start_compile_entry] at hok
    rcases hentry : (buildEntry name path).start (compiler, world) with ⟨fault | identity, built, world'⟩
    · rw [hentry] at hok
      cases hok
    rw [hentry] at hok
    obtain ⟨hsame, hgraph, hentries⟩ := registers_buildEntry h hentry
    obtain ⟨hconfig, hafter, hnames⟩ := ih hgraph hok
    refine ⟨hconfig.trans hsame, hafter, fun other => ?_⟩
    have hkeys : other ∈ built.graph.entries.map (·.1)
        ↔ other ∈ compiler.graph.entries.map (·.1) ∨ other = name := by
      rw [hentries, Data.keys_setField]
      split
      · next hmem => exact ⟨.inl, fun hother => hother.elim id fun heq => heq ▸ hmem⟩
      · simp
    rw [hnames, hkeys, List.map_cons, List.mem_cons, or_assoc]

/-- What building leaves of a fresh compiler: a name for each entry of the configuration, all of them modules
in the registry. -/
theorem registers_build (hfresh : compiler.graph = {})
    (hok : build.start (compiler, world) = (.ok (), (after, last))) :
    after.graph.Registers ∧
      ∀ name, name ∈ after.graph.entries.map (·.1) ↔ name ∈ after.config.entries.map (·.1) := by
  have hempty : compiler.graph.Registers := by
    rw [hfresh]
    exact ⟨.empty, List.nodup_nil, by simp⟩
  cases hpaths : compiler.entryPaths with
  | error fault =>
    rw [start_build_error hpaths] at hok
    cases hok
  | ok paths =>
    rw [start_build_ok hpaths] at hok
    obtain ⟨hconfig, hgraph, hnames⟩ := registers_compile hempty hok
    refine ⟨hgraph, fun name => ?_⟩
    rw [hnames, Compiler.names_of_entryPaths hpaths, hconfig, hfresh]
    simp

end Job

namespace Command

variable {host : Host π κ ω} {options : Options} {world built : World ω} {compiler : Compiler π κ ω}
  {graph : Graph} {identity : Identity}

/-! ### Rows -/

theorem distinct_eq_eraseDups (texts : List String) : distinct texts = texts.eraseDups := by
  suffices h : ∀ seen : List String,
      texts.foldl (fun seen text => if seen.contains text then seen else seen ++ [text]) seen
        = seen ++ (texts.filter fun text => !seen.contains text).eraseDups by
    simpa [distinct] using h []
  induction texts with
  | nil => simp
  | cons text rest ih =>
    intro seen
    rw [List.foldl_cons, ih]
    by_cases hmem : seen.contains text = true
    · rw [if_pos hmem, List.filter_cons_of_neg (by simpa using hmem)]
    · have hfilter : (rest.filter fun other => !(seen ++ [text]).contains other)
          = (rest.filter fun other => !seen.contains other).filter fun other => !other == text := by
        rw [List.filter_filter]
        exact List.filter_congr fun other _ => by simp [Bool.and_comm, beq_eq_decide]
      rw [if_neg hmem, List.filter_cons_of_pos (by simpa using hmem), List.eraseDups_cons, hfilter,
        List.append_assoc, List.singleton_append]

/-- The name in the row of a module is the last one of those that its entries have. -/
theorem entryName_eq (graph : Graph) (identity : Identity) :
    entryName graph identity
      = (((graph.entries.filter (·.2 = identity)).map (·.1)).getLast?).getD "" := by
  rw [entryName, ← List.head?_filter, List.filter_reverse, List.head?_reverse, List.getLast?_map]

/-- The name of an entry stands in the row of its module where no later entry is the same module. -/
theorem entryName_eq_iff (hnodup : (graph.entries.map (·.1)).Nodup)
    {before later : List (String × Identity)} {name : String}
    (h : graph.entries = before ++ (name, identity) :: later) :
    entryName graph identity = name ↔ ∀ entry ∈ later, entry.2 ≠ identity := by
  have hnew : name ∉ later.map (·.1) := by
    rw [h, List.map_append, List.map_cons] at hnodup
    exact (List.nodup_cons.1 (List.nodup_append.1 hnodup).2.1).1
  have hfilter : graph.entries.filter (·.2 = identity)
      = before.filter (·.2 = identity) ++ (name, identity) :: later.filter (·.2 = identity) := by
    rw [h, List.filter_append, List.filter_cons_of_pos (by simp)]
  rw [entryName_eq, hfilter]
  rcases List.eq_nil_or_concat (later.filter (·.2 = identity)) with hnone | ⟨others, last, hlast⟩
  · rw [hnone]
    exact iff_of_true (by simp) fun entry hentry heq =>
      List.filter_eq_nil_iff.1 hnone entry hentry (decide_eq_true heq)
  · have hmem : last ∈ later.filter (·.2 = identity) := by simp [hlast]
    obtain ⟨hlater, hsame⟩ := List.mem_filter.1 hmem
    rw [hlast, List.concat_eq_append, ← List.cons_append, ← List.append_assoc, List.map_append, List.map_singleton,
      List.getLast?_concat, Option.getD_some]
    exact iff_of_false (fun hname => hnew (hname ▸ List.mem_map_of_mem hlater))
      fun hall => hall last hlater (of_decide_eq_true hsame)

theorem moduleRow_eq (graph : Graph) (module : ModuleRecord) :
    moduleRow graph module
      = [(((graph.entries.filter (·.2 = module.identity)).map (·.1)).getLast?).getD "", module.identity,
        if module.dependencies = [] then "-" else Text.joinWith ", " module.dependencies.eraseDups] := by
  have hnone : module.dependencies.eraseDups = [] ↔ module.dependencies = [] := by
    cases module.dependencies <;> simp [List.eraseDups_cons]
  simp only [moduleRow, entryName_eq, distinct_eq_eraseDups, hnone]

theorem regular_graphTable (graph : Graph) : (graphTable graph).Regular := by
  intro row hrow
  obtain ⟨module, -, rfl⟩ := List.mem_map.1 hrow
  rfl

/-! ### The command -/

theorem exists_build_of_compiling (hhost : ∀ plugin, (host.install plugin).Keeps Job.SameGraph)
    (h : (compiling host options Job.build).start world = (.ok ((), compiler), built)) :
    ∃ fresh made, fresh.graph = {} ∧ Job.build.start (fresh, made) = (.ok (), (compiler, built)) := by
  rw [compiling, Attempt.start_bind_eq_ok_iff] at h
  obtain ⟨config, loaded, -, h⟩ := h
  obtain ⟨fresh, made, hmade, hbuild⟩ := Attempt.start_bind_eq_ok_iff.1 h
  exact ⟨fresh, made, (Compiler.fresh_of_ofConfig hhost hmade).2, Job.start_startWith_iff.1 hbuild⟩

theorem bare_graphSummary (graph : Graph) :
    Console.Bare (Level.success.sign ++ graphSummary graph).toList := by
  have hsummary : graphSummary graph = toString graph.modules.length ++ " modules reachable from "
      ++ toString graph.entries.length ++ " entries." := rfl
  rw [hsummary]
  simp only [String.toList_append, Console.bare_append_iff, Console.bare_toString, and_true, true_and]
  simp [Console.Bare, Level.sign]

theorem exists_log_graphSummary (console : Console) (graph : Graph) :
    ∃ after, console.log .success (graphSummary graph) = .ok after := by
  cases hlog : console.log .success (graphSummary graph) with
  | ok after => exact ⟨after, rfl⟩
  | error fault =>
    obtain ⟨text, htext⟩ := (bare_graphSummary graph).shows.exists_shown console.words
    cases htext.symm.trans (Console.shown_of_deliver hlog)

theorem start_graph (h : (compiling host options Job.build).start world = (.ok ((), compiler), built)) :
    (Command.graph host options).start world
      = Attempt.start (do
          printTable (graphTable compiler.graph)
          World.log .success (graphSummary compiler.graph)
          return success) built := by
  have hreporting : (reporting (compiling host options Job.build)).start world
      = (.ok (some ((), compiler)), built) := by
    simp only [Attempt.start] at h
    simp only [Attempt.start, reporting, h]
  rw [Command.graph, Attempt.start_bind, hreporting]
  rfl

/-- Printing a table either shows its texts or ends with the fault of one of them. -/
theorem start_graph_drawn (h : (compiling host options Job.build).start world = (.ok ((), compiler), built))
    {cell : String → List Char}
    (hcell : ∀ text ∈ (graphTable compiler.graph).texts, Console.shown built.console.words text = .ok (cell text)) :
    ∃ console, (built.console.write built.console.backend
        ((graphTable compiler.graph).drawnByRow cell built.console.width)).log
          .success (graphSummary compiler.graph) = .ok console ∧
      (Command.graph host options).start world = (.ok success, { built with console }) := by
  obtain ⟨console, hlog⟩ := exists_log_graphSummary (built.console.write built.console.backend
    ((graphTable compiler.graph).drawnByRow cell built.console.width)) compiler.graph
  refine ⟨console, hlog, ?_⟩
  have hprinted : (printTable (graphTable compiler.graph)).start built = (.ok (), { built with
      console := built.console.write built.console.backend
        ((graphTable compiler.graph).drawnByRow cell built.console.width) }) := by
    simp only [Attempt.start, printTable,
      Table.lines_eq_drawnByRow (regular_graphTable _) (List.cons_ne_nil _ _) hcell]
  rw [start_graph h, Attempt.start_bind, hprinted, Attempt.andThen_ok, Attempt.start_bind]
  simp only [Attempt.start, World.log, hlog]
  rfl

theorem start_graph_fault (h : (compiling host options Job.build).start world = (.ok ((), compiler), built))
    {text : String} (htext : text ∈ (graphTable compiler.graph).texts) {fault : Console.MarkupFault}
    (hfault : Console.shown built.console.words text = .error fault) :
    ∃ other ∈ (graphTable compiler.graph).texts, ∃ first, Console.shown built.console.words other = .error first ∧
      (Command.graph host options).start world = (.error (.markup first), built) := by
  obtain ⟨other, hother, first, hfirst, hlines⟩ :=
    Table.exists_lines_eq_error (regular_graphTable compiler.graph) htext hfault built.console.width
  refine ⟨other, hother, first, hfirst, ?_⟩
  have hprinted : (printTable (graphTable compiler.graph) : Act ω Unit).start built
      = (.error (.markup first), built) := by
    simp only [Attempt.start, printTable, hlines]
  rw [start_graph h, Attempt.start_bind, hprinted, Attempt.andThen_error]

theorem widthOf_heading {words : Console.Vocabulary} {cell : String → List Char}
    (hcell : ∀ text ∈ (graphTable compiler.graph).texts, Console.shown words text = .ok (cell text)) :
    ∀ heading ∈ (graphTable compiler.graph).headings, 0 < Table.widthOf (cell heading) := by
  have hshown : ∀ heading ∈ ["Entry", "Module", "Dependencies"],
      Console.shown words heading = .ok heading.toList ∧ 0 < Table.widthOf heading.toList := by
    simp only [List.forall_mem_cons]
    exact ⟨⟨rfl, by decide⟩, ⟨rfl, by decide⟩, ⟨rfl, by decide⟩, nofun⟩
  intro heading hheading
  obtain ⟨hself, hpos⟩ := hshown heading hheading
  rwa [Except.ok.inj ((hcell heading (List.mem_append_left _ hheading)).symm.trans hself)]

/-- After a build that succeeds, the table has a row for each module of the registry, in its order, and each
entry of the configuration is one of these modules; its name is in the row of the module if no later entry
is the same module. The table is printed row by row if all its texts can be shown. A cell shows its text as it
is if the text is literal and has room, and a console that has room for the table has room for all of them. -/
theorem graph_of_compiling (hhost : ∀ plugin, (host.install plugin).Keeps Job.SameGraph)
    (h : (compiling host options Job.build).start world = (.ok ((), compiler), built)) :
    let table := graphTable compiler.graph
    let words := built.console.words
    let width := built.console.width
    (table.rows = compiler.graph.modules.map fun entry =>
      [(((compiler.graph.entries.filter (·.2 = entry.1)).map (·.1)).getLast?).getD "", entry.1,
        if entry.2.dependencies = [] then "-"
        else Text.joinWith ", " entry.2.dependencies.eraseDups]) ∧
    compiler.graph.identities.Nodup ∧
    (∀ name, name ∈ compiler.config.entries.map (·.1) ↔ name ∈ compiler.graph.entries.map (·.1)) ∧
    (∀ before name identity later, compiler.graph.entries = before ++ (name, identity) :: later →
      identity ∈ compiler.graph.identities ∧
        (entryName compiler.graph identity = name ↔ ∀ entry ∈ later, entry.2 ≠ identity)) ∧
    (∀ cell, (∀ text ∈ table.texts, Console.shown words text = .ok (cell text)) →
      (∃ console, (built.console.write built.console.backend (table.drawnByRow cell width)).log
          .success (graphSummary compiler.graph) = .ok console ∧
        (Command.graph host options).start world = (.ok success, { built with console })) ∧
      (∀ row ∈ table.rows, Table.Stands words (table.widths cell width) row →
        Table.rowLines '│' false (table.widths cell width) (row.map cell)
          = [Table.rowText '│' (table.widths cell width) row]) ∧
      (table.Fits cell width → ∀ row ∈ table.rows,
        (∀ text ∈ row, Console.Literal words text.toList ∧ Table.Compact text.toList) →
        Table.printedRow width (table.widths cell width) (row.map cell)
          = [String.ofList (Table.rowText '│' (table.widths cell width) row)])) ∧
    (∀ text ∈ table.texts, ∀ fault, Console.shown words text = .error fault →
      ∃ other ∈ table.texts, ∃ first, Console.shown words other = .error first ∧
        (Command.graph host options).start world = (.error (.markup first), built)) ∧
    ∀ text room, Table.padding < room →
      ((∃ shown, Console.shown words text = .ok shown ∧ Table.cellLines room shown = [text.toList])
        ↔ Console.Literal words text.toList ∧ Console.HasRoom (room - Table.padding) text.toList) := by
  intro table words width
  obtain ⟨fresh, made, hfresh, hbuild⟩ := exists_build_of_compiling hhost h
  obtain ⟨hgraph, hnames⟩ := Job.registers_build hfresh hbuild
  refine ⟨?rows, hgraph.consistent.nodup, fun name => (hnames name).symm, ?entries, ?printed, ?faults,
    fun text room hroom => Console.exists_shown_iff hroom⟩
  case rows =>
    refine List.map_congr_left fun entry hentry => ?_
    rw [← hgraph.consistent.identity_eq entry hentry]
    exact moduleRow_eq compiler.graph entry.2
  case entries =>
    intro before name identity later hsplit
    have hmem : (name, identity) ∈ compiler.graph.entries := by simp [hsplit]
    exact ⟨hgraph.recorded _ hmem, entryName_eq_iff hgraph.nodup hsplit⟩
  case printed =>
    intro cell hcell
    have hrow : ∀ row ∈ table.rows, ∀ text ∈ row, Console.shown words text = .ok (cell text) :=
      fun row hrow text htext => hcell text (List.mem_append_right _ (List.mem_flatten.2 ⟨row, hrow, htext⟩))
    refine ⟨start_graph_drawn h hcell, fun row hmem hstands => ?_, fun hfits row hmem hliteral => ?_⟩
    · exact Table.rowLines_of_stands hstands (hrow row hmem) _ _
    · exact Table.printedRow_of_fits (regular_graphTable _) hfits (widthOf_heading hcell) (hrow row hmem) hmem
        hliteral
  case faults => exact fun text htext fault hfault => start_graph_fault h htext hfault

/-- A world whose root directory has a module with brackets in its name. -/
def bracketWorld : World Unit where
  tree := ⟨.ofString "/proj", [(Compiler.placeOf "proj", .directory),
    (Compiler.placeOf "proj/index.py", .file "require('./[x]')\n".toUTF8),
    (Compiler.placeOf "proj/[x].py", .file "".toUTF8)]⟩
  console := .start []
  registry := {}
  memory := ()

/-- Two entries that are the same module. -/
def twice : Options := { entries := some ["a=index.py", "b=index.py"] }

theorem graph_of_compiling_twice : ∃ compiler built,
    (compiling Job.idleHost twice Job.build).start bracketWorld = (.ok ((), compiler), built) ∧
      (graphTable compiler.graph).rows = [["", "./[x].py", "-"], ["b", "./index.py", "./[x].py"]] ∧
      entryName compiler.graph "./index.py" ≠ "a" ∧
      ∃ console, (Command.graph Job.idleHost twice).start bracketWorld
        = (.ok success, { built with console }) := by
  have hbuilt : (match (compiling Job.idleHost twice Job.build).start bracketWorld with
      | (.ok ((), compiler), built) => ((graphTable compiler.graph).rows, compiler.graph.entries,
        (graphTable compiler.graph).texts.all fun text => (Console.shown built.console.words text).toOption.isSome)
      | (.error _, _) => ([], [], false)) = ([["", "./[x].py", "-"], ["b", "./index.py", "./[x].py"]],
        [("a", "./index.py"), ("b", "./index.py")], true) := by decide +kernel
  rcases hmade : (compiling Job.idleHost twice Job.build).start bracketWorld
    with ⟨fault | ⟨⟨⟩, compiler⟩, built⟩
  · simp [hmade] at hbuilt
  rw [hmade] at hbuilt
  obtain ⟨hrows, hrest⟩ := Prod.mk.inj hbuilt
  obtain ⟨hentries, hshown⟩ := Prod.mk.inj hrest
  obtain ⟨-, -, -, hnames, hprinted, -⟩ := graph_of_compiling (fun _ => Attempt.keeps_pure ()) hmade
  have hcell : ∀ text ∈ (graphTable compiler.graph).texts, Console.shown built.console.words text
      = .ok ((Console.shown built.console.words text).toOption.getD []) := by
    intro text htext
    have hsome := List.all_eq_true.1 hshown text htext
    cases htext : Console.shown built.console.words text with
    | error fault => simp [htext, Except.toOption] at hsome
    | ok shown => rfl
  have hlast := (hnames [] "a" "./index.py" [("b", "./index.py")] hentries).2
  obtain ⟨⟨console, -, hconsole⟩, -⟩ := hprinted _ hcell
  exact ⟨compiler, built, rfl, hrows, fun hname => hlast.1 hname _ (.head _) rfl, console, hconsole⟩

/-- The brackets are gone from the table, and so is the first one of the two names. -/
theorem graph_loses_brackets :
    (match (compiling Job.idleHost twice Job.build).start bracketWorld with
      | (.ok ((), compiler), _) => (compiler.graph.identities, compiler.graph.entries)
      | (.error _, _) => ([], []))
      = (["./[x].py", "./index.py"], [("a", "./index.py"), ("b", "./index.py")]) ∧
    ((Command.graph Job.idleHost twice).start bracketWorld).2.console.output.map (·.text)
      = ["            Module Graph",
        "┏━━━━━━━┳━━━━━━━━━━━━┳━━━━━━━━━━━━━━┓",
        "┃ Entry ┃ Module     ┃ Dependencies ┃",
        "┡━━━━━━━╇━━━━━━━━━━━━╇━━━━━━━━━━━━━━┩",
        "│       │ ./.py      │ -            │",
        "│ b     │ ./index.py │ ./.py        │",
        "└───────┴────────────┴──────────────┘",
        "SUCCESS  ✅ 2 modules reachable from 2 entries."] := by
  decide +kernel

end Command
end Bundler
