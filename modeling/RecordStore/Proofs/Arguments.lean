import RecordStore.Command.Arguments
import RecordStore.Proofs.Growth

/-!
# Paths on a command line

An empty path is refused wherever it stands, so what a command line asks for has no path or one that
names something.
-/

namespace RecordStore.Command

/-- The path, if one is given, is not empty. -/
def Settings.Named (s : Settings) : Prop := s.path ≠ some ""

variable {s t : Settings} {place : Option Subcommand} {name : OptionName} {value : String}
  {awaiting : Awaiting}

theorem Settings.Named.setValue (h : s.Named) (hset : s.setValue name value = .ok t) :
    t.Named := by
  unfold Settings.setValue at hset
  cases name with
  | path =>
    dsimp only at hset
    split at hset
    · cases hset
    · rename_i hvalue
      cases hset
      rintro ⟨⟩
      simp at hvalue
  | files =>
    dsimp only at hset
    split at hset
    · cases hset
      exact h
    · cases hset
  | format =>
    dsimp only at hset
    split at hset
    · cases hset
    · cases hset
      exact h
  | _ => cases hset

theorem Settings.Named.setFlag (h : s.Named) (hset : s.setFlag name = .ok t) : t.Named := by
  unfold Settings.setFlag at hset
  split at hset
  · split at hset
    · cases hset
    · cases hset
      exact h
  · split at hset
    · cases hset
    · cases hset
      exact h
  all_goals cases hset

theorem Settings.Named.setOperand (h : s.Named) (hset : s.setOperand place value = .ok t) :
    t.Named := by
  unfold Settings.setOperand at hset
  split at hset
  · cases hset
    exact h
  · cases hset

theorem Settings.Named.setOperands (h : s.Named) {texts : List String}
    (hset : texts.foldlM (fun s text => s.setOperand place text) s = .ok t) : t.Named := by
  induction texts generalizing s with
  | nil =>
    cases hset
    exact h
  | cons text rest ih =>
    rw [List.foldlM_cons] at hset
    obtain ⟨next, hnext, hset⟩ := bind_eq_ok.1 hset
    exact ih (h.setOperand hnext) hset

theorem ok_of_awaiting {x : Except Stop Settings}
    (h : (fun u => (u, (none : Awaiting))) <$> x = .ok (t, awaiting)) : x = .ok t := by
  cases x with
  | error stop => cases h
  | ok u =>
    cases h
    rfl

theorem named_of_readLong (h : s.Named) {text : List Char}
    (hread : readLong place s text = .ok (t, awaiting)) : t.Named := by
  unfold readLong at hread
  dsimp only at hread
  split at hread
  · cases hread
  · split at hread
    · cases hread
    · split at hread
      · exact h.setValue (ok_of_awaiting hread)
      · cases hread
        exact h
      · cases hread
      · exact h.setFlag (ok_of_awaiting hread)

theorem named_of_readShort (h : s.Named) {text : List Char}
    (hread : readShort place s text = .ok (t, awaiting)) : t.Named := by
  induction text generalizing s with
  | nil =>
    cases hread
    exact h
  | cons c rest ih =>
    unfold readShort at hread
    split at hread
    · cases hread
    · split at hread
      · cases hread
      · split at hread
        · split at hread
          · cases hread
            exact h
          · exact h.setValue (ok_of_awaiting hread)
          · exact h.setValue (ok_of_awaiting hread)
        · obtain ⟨next, hflag, hread⟩ := bind_eq_ok.1 hread
          exact ih (h.setFlag hflag) hread

theorem named_of_readPlace (h : s.Named) {args : List String}
    {next : Option (Subcommand × List String)}
    (hread : readPlace place s awaiting args = .ok (t, next)) : t.Named := by
  induction args generalizing s awaiting with
  | nil =>
    unfold readPlace at hread
    split at hread
    · cases hread
    · cases hread
      exact h
  | cons arg rest ih =>
    unfold readPlace at hread
    split at hread
    · cases hread
      exact h
    · split at hread
      · split at hread
        · cases hread
        · obtain ⟨u, hset, hread⟩ := bind_eq_ok.1 hread
          cases hread
          exact h.setOperands hset
      · split at hread
        · cases hread
        · obtain ⟨⟨u, after⟩, hlong, hread⟩ := bind_eq_ok.1 hread
          exact ih (named_of_readLong h hlong) hread
      · split at hread
        · cases hread
        · obtain ⟨⟨u, after⟩, hshort, hread⟩ := bind_eq_ok.1 hread
          exact ih (named_of_readShort h hshort) hread
      · split at hread
        · obtain ⟨u, hset, hread⟩ := bind_eq_ok.1 hread
          exact ih (h.setValue hset) hread
        · split at hread
          · cases hread
          · obtain ⟨u, hset, hread⟩ := bind_eq_ok.1 hread
            exact ih (h.setOperand hset) hread

/-- A command is never run on the empty path. -/
theorem path_of_readArguments {args : List String} {invocation : Invocation}
    (h : readArguments args = .ok invocation) : invocation.path ≠ some "" := by
  unfold readArguments at h
  obtain ⟨⟨outer, next⟩, hread, h⟩ := bind_eq_ok.1 h
  have houter : outer.path ≠ some "" := named_of_readPlace (s := {}) nofun hread
  cases next with
  | none => cases h
  | some sub =>
    obtain ⟨name, rest⟩ := sub
    obtain ⟨⟨inner, more⟩, hread, h⟩ := bind_eq_ok.1 h
    have hinner : inner.path ≠ some "" := named_of_readPlace (s := {}) nofun hread
    obtain ⟨action, -, h⟩ := bind_eq_ok.1 h
    cases h
    cases hpath : inner.path with
    | none => simpa [hpath] using houter
    | some path => simpa [hpath] using hinner

end RecordStore.Command
