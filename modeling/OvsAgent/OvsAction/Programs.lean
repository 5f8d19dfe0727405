/-
  OvsAgent.OvsAction.Programs — which programs the commands of a request start.

  What a command runs is what the shell makes of its text.  Where the fields of
  a request are words, that is what its formats say; where they are not, only
  the words in front of the first field are sure.

  Main results:
    * `startsOnly_iff_formats` — with fields that are words, a law of the
      programs started is a law of the programs of the formats;
    * `Command.starts_front` — the front of a command's text is the front of the
      first program it starts.
-/
import OvsAgent.OvsAction.ShellWords

namespace OvsAgent

open CString (ofString)
open Traced

variable {conf : OvsActionConfig} {env : ActionEnv} {req : GatewayConfig} {P : List CString → Prop}

/-- The programs of the command's format, each with its arguments. -/
def Command.programs (c : Command) : List (List CString) := (Shell.wordsOf c.parts).getD []

/-- The shell starts programs that satisfy `P` for the command, and nothing else. -/
def Command.Starts (P : List CString → Prop) (c : Command) : Prop := Shell.StartsOnly P c.render

/-- The programs of the command's format satisfy `P`. -/
def Command.Means (P : List CString → Prop) (c : Command) : Prop := ∀ words ∈ c.programs, P words

/-- Of all the programs started for the computation, each satisfies `P`. -/
def StartsOnly {α : Type} (P : List CString → Prop) (p : Action α) : Prop := RunsOnly (Command.Starts P) p

/-- The computation runs commands whose formats mean programs that satisfy `P`. -/
def MeansOnly {α : Type} (P : List CString → Prop) (p : Action α) : Prop := RunsOnly (Command.Means P) p

theorem means_one {c : Command} {words : List CString} (h : c.programs = [words]) :
    c.Means P ↔ P words := by
  unfold Command.Means
  rw [h, List.forall_mem_singleton]

/-- **Programs of the formats.**  A request whose fields are words starts the
programs that its commands' formats mean. -/
theorem startsOnly_iff_formats (hb : req.Bounded) (hw : WholeWords conf env req) :
    StartsOnly P (ovsActionGatewayConfig conf env req) ↔
    MeansOnly P (ovsActionGatewayConfig conf env req) := by
  have hordinary : RunsOnly Command.Ordinary (ovsActionGatewayConfig conf env req) :=
    ordinary_ovsActionGatewayConfig hb
  have hsplits := (splits_iff_wordsFit hordinary).2 (wordsFit_ovsActionGatewayConfig_iff.2 hw)
  exact hsplits.congr fun _ hcmd => Shell.Splits.startsOnly_iff hcmd

/-- The text behind the front of a format, cut or not. -/
theorem Command.render_front {c : Command} {s : String} {pieces : List Piece}
    (h : c.template = .text s :: pieces) (hlen : (ofString s).length ≤ 249) :
    ∃ rest, c.render = ofString s ++ rest := by
  unfold Command.render
  rw [h, List.flatMap_cons]
  show ∃ rest, (ofString s ++ pieces.flatMap Piece.bytes).take 249 = _
  rw [List.take_append, List.take_of_length_le hlen]
  exact ⟨_, rfl⟩

/-- **The front of a command.**  Whatever its fields, the first program started
is the one of the format. -/
theorem Command.starts_front {c : Command} {s : String} {pieces : List Piece} {words : List CString}
    (htemplate : c.template = .text s :: pieces)
    (hfront : Shell.run Shell.start (ofString s) = some ⟨.unquoted, none, words, []⟩) (hne : words ≠ [])
    (hlen : (ofString s).length ≤ 249) (h : c.Starts P) : ∃ more, P (words ++ more) := by
  obtain ⟨rest, hrender⟩ := Command.render_front htemplate hlen
  obtain ⟨commands, hread, hall⟩ := h
  rw [hrender] at hread
  obtain ⟨more, later, hcommands⟩ := Shell.read_front hfront hne hread
  exact ⟨more, hall _ (hcommands ▸ List.mem_cons_self ..)⟩

end OvsAgent
