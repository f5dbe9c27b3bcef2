import VerifierTrace.CommandLine.Run
import VerifierTrace.Proofs.Files.Written

/-!
# VerifierTrace.Proofs.CommandLine.Outcome

What a request comes to, whatever it asks for.

The text of an answer is made as a whole before any of it goes anywhere, so there are two ways only:
there is an answer, and all of it is written to one place, or there is none, and nothing is written.

* `Written`: all of a text is where it was to go, and nothing else is anywhere.
* `fulfil_of_error`, `fulfil_of_ok`: the two ways.
* `exit_eq_one_iff`: the exit code is 1 for queries without an answer, and for nothing else.
-/

namespace VerifierTrace
namespace CommandLine

namespace Told

variable {α β : Type}

theorem result_silent (x : Except Failure α) : (silent x).result = x := rfl

theorem result_andThen (t : Told α) (next : α → Told β) :
    (t.andThen next).result = t.result.bind fun x => (next x).result := by
  unfold andThen
  cases t.result <;> rfl

theorem result_map (f : α → β) (t : Told α) : (t.map f).result = t.result.map f := rfl

end Told

/-- Texts can be written there. -/
def Open (s : Surroundings) (output : Setting String) : Prop :=
  match output with
  | .unset => True
  | .blank => False
  | .to name => name = "-" ∨ ∀ text, ∃ files, save s name text = .ok files

/-- The text went to the standard output or to a file, and to one of them only. -/
structure Written (s : Surroundings) (output : Setting String) (text : String) (o : Outcome) :
    Prop where
  exit : o.exit = 0
  printed : output = .unset ∨ output = .to "-" → o.stdout = text ∧ o.files = s.files
  saved : ∀ name, output = .to name → name ≠ "-" →
    o.stdout = "" ∧ save s name text = .ok o.files ∧
      ∃ path, pathOf s name = .ok path ∧ o.files.read path = .ok text.toUTF8.toList

/-- Nothing was printed, and no file has changed. -/
structure Unwritten (s : Surroundings) (o : Outcome) : Prop where
  stdout : o.stdout = ""
  files : o.files = s.files

variable {s : Surroundings} {r : Request} {output : Setting String} {e : Failure} {text : String}

/-! ## Writing -/

theorem read_of_save {name : String} {files : FileTree} (h : save s name text = .ok files) :
    ∃ path, pathOf s name = .ok path ∧ files.read path = .ok text.toUTF8.toList := by
  unfold save at h
  split at h
  · cases h
  · next path hpath =>
    split at h
    · cases h
    · next hwrite =>
      cases h
      exact ⟨path, hpath, FileTree.read_of_writeDeep hwrite⟩

/-- What cannot be written is not for want of an answer. -/
theorem exit_of_save {name : String} (h : save s name text = .error e) : e.exit = 2 := by
  unfold save at h
  split at h
  · next e' hpath =>
    cases h
    unfold pathOf at hpath
    simp only at hpath
    split at hpath
    · cases hpath
      rfl
    · split at hpath
      · cases hpath
        rfl
      · cases hpath
  · split at h
    · cases h
      rfl
    · cases h

theorem deliver_cases (s : Surroundings) (output : Setting String) (text : String)
    (told : List String) :
    (∃ e, deliver s output text told = .error e ∧ e.exit = 2 ∧ ¬ Open s output) ∨
      ∃ o, deliver s output text told = .ok o ∧ Written s output (Text.closed text) o := by
  unfold deliver
  simp only
  split
  · exact .inl ⟨_, rfl, rfl, id⟩
  · exact .inr ⟨_, rfl, rfl, fun _ => ⟨rfl, rfl⟩, fun name hname => nomatch hname⟩
  · refine .inr ⟨_, rfl, rfl, fun _ => ⟨rfl, rfl⟩, fun name hname hne => ?_⟩
    cases hname
    exact absurd rfl hne
  · next name hname =>
    have hfile : name ≠ "-" := by
      rintro rfl
      exact hname rfl
    cases hsave : save s name (Text.closed text) with
    | error e =>
      refine .inl ⟨e, rfl, exit_of_save hsave, ?_⟩
      rintro (hout | hsaves)
      · exact hfile hout
      · obtain ⟨files, hfiles⟩ := hsaves (Text.closed text)
        rw [hsave] at hfiles
        cases hfiles
    | ok files =>
      refine .inr ⟨_, rfl, rfl, ?_, ?_⟩
      · rintro (hout | hout) <;> cases hout
        exact absurd rfl hfile
      · rintro name' ⟨⟩ -
        exact ⟨rfl, hsave, read_of_save hsave⟩

/-! ## Requests -/

theorem fulfil_of_error (h : (perform s r.task).result = .error e) :
    (fulfil s r).exit = e.exit ∧ Unwritten s (fulfil s r) := by
  simp only [fulfil, h]
  exact ⟨rfl, rfl, rfl⟩

/-- An answer is written as a whole, and its last line is closed. -/
theorem fulfil_of_ok (h : (perform s r.task).result = .ok text) (hopen : Open s r.output) :
    Written s r.output (Text.closed text) (fulfil s r) := by
  rcases deliver_cases s r.output text (tell r.verbosity (perform s r.task).events) with
    ⟨-, -, -, hclosed⟩ | ⟨o, hdeliver, hwritten⟩
  · exact absurd hopen hclosed
  · simp only [fulfil, h, hdeliver]
    exact hwritten

theorem exit_eq_one_iff : (fulfil s r).exit = 1 ↔
    ∃ fault, (perform s r.task).result = .error (.query fault) := by
  cases hresult : (perform s r.task).result with
  | error e =>
    rw [(fulfil_of_error hresult).1]
    cases e <;> simp [Failure.exit]
  | ok text =>
    have hexit : (fulfil s r).exit ≠ 1 := by
      rcases deliver_cases s r.output text (tell r.verbosity (perform s r.task).events) with
        ⟨e, hdeliver, he, -⟩ | ⟨o, hdeliver, hwritten⟩
      · simp [fulfil, hresult, hdeliver, giveUp, he]
      · simp [fulfil, hresult, hdeliver, hwritten.exit]
    simp [hexit]

end CommandLine
end VerifierTrace
