import Bundler.Compiler.Run
import Bundler.Proofs.Console.Markup

/-!
# The messages of a run

Which messages of a run can be shown. A path or an identity is put between marks as it is, so a closing
tag in it spoils the message (`Spoiled`); nothing else does. Rules are escaped, and the other messages
hold no tag.
-/

namespace Bundler

variable {ω : Type}

/-- The messages of a run with a name in it that may hold a closing tag. -/
inductive Spoiled (ω : Type) : Level → String → Prop
  | applied (rule : Rule (Transform ω)) {path : FilePath} (h : Console.MayClose path.toString.toList) :
      Spoiled ω .debug (Pipeline.notice rule path)
  | built {identity : Identity} (count : Nat) (h : Console.MayClose identity.toList) :
      Spoiled ω .debug (Processing.notice identity count)
  | written {path : FilePath} (h : Console.MayClose path.toString.toList) :
      Spoiled ω .success (Job.writtenNotice path)

open Console

theorem Pipeline.shows_notice (rule : Rule (Transform ω)) {path : FilePath}
    (h : ¬MayClose path.toString.toList) :
    Shows (Level.debug.sign ++ notice rule path).toList := by
  have hnotice : notice rule path = "Applying rule [code]" ++ escape rule.test ++ "[/code] to [path]"
      ++ path.toString ++ "[/path]" := rfl
  have hpath := shows_nil.marked_text isMark_path h
  have hbetween := hpath.bare_append (show Bare " to ".toList by simp [Bare])
  have hcode := hbetween.marked isMark_code (tags_escape rule.test) (by simp)
  have hmessage := hcode.bare_append (show Bare "Applying rule ".toList by simp [Bare])
  rw [hnotice, Level.sign]
  simpa only [String.toList_append, String.reduceToList, List.nil_append, List.cons_append,
    List.append_assoc] using hmessage

theorem Processing.shows_notice {identity : Identity} (count : Nat)
    (h : ¬MayClose identity.toList) : Shows (Level.debug.sign ++ notice identity count).toList := by
  have hnotice : notice identity count
      = "Built [path]" ++ identity ++ "[/path] (" ++ toString count ++ " dependencies)" := rfl
  have hcount : Bare (" (".toList ++ (toString count).toList ++ " dependencies)".toList) := by
    simp only [bare_append_iff, bare_toString, and_true]
    simp [Bare]
  have hpath := hcount.shows.marked_text isMark_path h
  have hmessage := hpath.bare_append (show Bare "Built ".toList by simp [Bare])
  rw [hnotice, Level.sign]
  simpa only [String.toList_append, String.reduceToList, List.nil_append, List.cons_append,
    List.append_assoc] using hmessage

theorem Job.shows_writtenNotice {path : FilePath} (h : ¬MayClose path.toString.toList) :
    Shows (Level.success.sign ++ writtenNotice path).toList := by
  have hnotice : writtenNotice path = "Bundle written to [path]" ++ path.toString ++ "[/path]" := rfl
  have hpath := shows_nil.marked_text isMark_path h
  have hfront : Bare (Level.success.sign ++ "Bundle written to ").toList := by simp [Bare, Level.sign]
  have hmessage := hpath.bare_append hfront
  rw [hnotice]
  simpa only [Level.sign, String.toList_append, String.reduceToList, List.nil_append, List.cons_append,
    List.append_assoc] using hmessage

theorem Job.bare_builtNotice (modules entries : Nat) :
    Bare (Level.info.sign ++ builtNotice modules entries).toList := by
  have hnotice : builtNotice modules entries = "Built " ++ toString modules ++ " modules from "
      ++ toString entries ++ " entr" ++ (if entries = 1 then "y" else "ies") := rfl
  have hplural : Bare (if entries = 1 then "y" else "ies").toList := by
    split <;> simp [Bare]
  rw [hnotice]
  simp only [String.toList_append, bare_append_iff, bare_toString, hplural, and_true]
  simp [Bare, Level.sign]

theorem Stats.bare_report (stats : Stats) {status : String} (hstatus : Bare status.toList) :
    Bare (Level.info.sign ++ stats.report status).toList := by
  have hreport : stats.report status = status ++ ": " ++ toString stats.moduleCount ++ " modules, "
      ++ toString stats.bundleSize ++ " chars" := rfl
  rw [hreport]
  simp only [String.toList_append, bare_append_iff, bare_toString, hstatus, and_true, true_and]
  simp [Bare, Level.sign]

theorem Console.shown_of_deliver {level : Level} {message : String} {handlers : List Handler}
    {console : Console} {fault : Console.MarkupFault}
    (h : console.deliver level message handlers = .error fault) :
    Console.shown console.words (level.sign ++ message) = .error fault := by
  induction handlers generalizing console with
  | nil => cases h
  | cons handler rest ih =>
    cases handler with
    | foreign number => exact ih h
    | own backend =>
      rw [Console.deliver, Console.logLines] at h
      cases hshown : Console.shown console.words (level.sign ++ message) with
      | error other =>
        rw [hshown] at h
        cases h
        rfl
      | ok text =>
        rw [hshown] at h
        have hrest := ih h
        exact hshown.symm.trans hrest

theorem World.exists_start_log {level : Level} {message : String}
    (h : Console.Shows (level.sign ++ message).toList) (world : World ω) :
    ∃ last, (World.log level message).start world = (.ok (), last) := by
  simp only [Attempt.start, World.log]
  cases hlog : world.console.log level message with
  | ok console => exact ⟨_, rfl⟩
  | error fault =>
    obtain ⟨shown, hshown⟩ := h.exists_shown world.console.words
    cases hshown.symm.trans (Console.shown_of_deliver hlog)

end Bundler
