import LedgerQuery.Proofs.Json.Reader
import LedgerQuery.Proofs.Json.Written
import LedgerQuery.Proofs.Text.Split
import LedgerQuery.Settings.Load

/-! Files of settings: how the path of one is taken apart, and that a written object is read back as
the settings it holds. -/

namespace LedgerQuery

namespace Json

lemma read_document {j : Json} {bytes : List UInt8} (h : Document j bytes)
    (hn : nesting j < Scan.levels) : read bytes = .ok j := by
  obtain ⟨rest, htext, hrest⟩ := h
  have hends : Ends rest := ends_of_past (hrest.symm ▸ ends_nil)
  have hyields : Scan.Yields ((Scan.start bytes).value Scan.levels (Scan.start bytes).fuel)
      (some j) rest := htext.yields rfl hends hn (Nat.le_add_right _ _)
  obtain ⟨s, hvalue, hs⟩ := hyields
  simp only [read, hvalue, bind, Except.bind]
  exact Scan.finish_ok j (hs.symm ▸ hrest)

end Json

namespace Settings

lemma ofName?_eq (name : String) : Format.ofName? name =
    match ((name.toList.splitOnP (· == '.')).map String.ofList).reverse with
    | ext :: stem :: more =>
      if stem.isEmpty && more.isEmpty then none else Format.all.find? (·.extension == ext)
    | _ => none := by
  rw [← Text.splitOn_singleton]
  rfl

lemma read_written {members : List (String × Json)} (h : Json.Proper (.obj members))
    (hn : Json.nesting (.obj members) < Json.Scan.levels) :
    Format.read .json (Json.obj members).write = some (.table (Datum.ofJsonMembers members)) := by
  simp only [Format.read, Json.read_document (Json.document_write h) hn, Datum.ofJson]

lemma find_here (text : String) : find [("settings.json", text)] "" "settings.json" =
    .ok ⟨"settings.json", .json, text⟩ := by
  have hnames : Path.names "settings.json" = ["settings.json"] := by
    rw [Path.names, Path.steps_eq]
    decide +kernel
  have husable : Path.isUsable "settings.json" = true := by
    rw [Path.isUsable_eq]
    decide +kernel
  have hformat : Format.ofName? "settings.json" = some .json := by
    rw [ofName?_eq]
    decide +kernel
  have hplace : Workspace.place "settings.json" = ⟨.above 0, ["settings.json"]⟩ := by
    rw [Workspace.place, hnames]
    decide +kernel
  have hfile : (Files.workspace [("settings.json", text)]).file? "settings.json" =
      some ⟨.above 0, ["settings.json"]⟩ := by
    simp only [Files.workspace, List.foldl, Workspace.touch, hplace, Workspace.file?, husable,
      Path.steps_eq]
    decide +kernel
  have htext : Files.text? [("settings.json", text)] "" "settings.json" = some text := by
    have hjoin : Path.join "" "settings.json" = "settings.json" := by decide +kernel
    rw [Files.text?, hjoin, husable, hfile]
    simp [Files.textAt, hplace]
  have hname : String.intercalate "/" ["settings.json"] = "settings.json" := by decide +kernel
  simp [find, htext, hnames, hformat, hname]

end Settings

end LedgerQuery
