import Mathlib.Algebra.Ring.Nat
import Mathlib.Data.List.Infix
import TraceExplorer.Config.Search
import TraceExplorer.Proofs.Host.Reading

/-!
# Looking upward for a settings file

The search goes from a directory upward to the first one at which it ends, and to no more than
twenty. The first of these directories that has a settings file decides. The home directory ends the
search only if its path is written without detours, because the search compares paths and not what
they lead to.
-/

namespace TraceExplorer.Config

/-- A directory and all directories above it, the root last. -/
def upward (dir : List String) : List (List String) := dir.inits.reverse

/-- The directories from a place upward to the first at which the search ends, and no more than
twenty. -/
def upTo (ends : List String → Bool) (dir : List String) : List (List String) :=
  ((upward dir).take ((upward dir).findIdx ends + 1)).take searchDepth

def envFileIn (dir : List String) : Host.Path := .absolute (dir ++ [envFileName])

def hasEnvFile (h : Host) (dir : List String) : Bool :=
  match h.lookup (envFileIn dir) with
  | .found _ => true
  | _ => false

def isOutermost (h : Host) (dir : List String) : Bool :=
  h.home.map h.resolve == some dir || dir.isEmpty || h.existsAt (dir ++ [".git"])

/-- The path of the home directory is the one from the root without detours. -/
def HasPlainHome (h : Host) : Prop := ∀ home ∈ h.home, home = .absolute (h.resolve home)

/-- The names along a directory, and the path of a settings file in it, are not too long. -/
structure IsInReach (dir : List String) : Prop where
  names : ∀ name ∈ dir, name.utf8ByteSize ≤ Host.nameLimit
  path : (envFileIn dir).text.utf8ByteSize ≤ Host.pathLimit

section

variable {h : Host} {dir : List String} {dirs : List (List String)}

/-! ## The directories that are looked into -/

theorem upward_concat (dir : List String) (name : String) :
    upward (dir ++ [name]) = (dir ++ [name]) :: upward dir := by
  simp [upward, List.inits_append]

theorem upward_of_ne_nil (hne : dir ≠ []) : upward dir = dir :: upward dir.dropLast := by
  have hconcat := upward_concat dir.dropLast (dir.getLast hne)
  rwa [List.dropLast_concat_getLast] at hconcat

theorem mem_upward {above : List String} : above ∈ upward dir ↔ above <+: dir := by
  rw [upward, List.mem_reverse, List.mem_inits]

theorem isBoundary_root (h : Host) : isBoundary h [] := by
  simp [isBoundary]

theorem searched_eq_take (h : Host) (depth : Nat) (dir : List String) :
    searched h depth dir =
      ((upward dir).take ((upward dir).findIdx (isBoundary h) + 1)).take depth := by
  induction depth generalizing dir with
  | zero => rfl
  | succ depth ih =>
      by_cases hboundary : isBoundary h dir
      · obtain ⟨above, hfirst⟩ : ∃ above, upward dir = dir :: above := by
          cases dir with
          | nil => exact ⟨[], rfl⟩
          | cons name rest => exact ⟨_, upward_of_ne_nil (List.cons_ne_nil _ _)⟩
        simp [searched, hboundary, hfirst, List.findIdx_cons]
      · have hne : dir ≠ [] := by
          rintro rfl
          exact hboundary (isBoundary_root h)
        rw [searched, if_neg hboundary, ih, upward_of_ne_nil hne, List.findIdx_cons]
        simp [hboundary]

theorem searched_eq_upTo (h : Host) (dir : List String) :
    searched h searchDepth dir = upTo (isBoundary h) dir := searched_eq_take h searchDepth dir

theorem mem_upward_of_mem_upTo {ends : List String → Bool} {above : List String}
    (hmem : above ∈ upTo ends dir) : above <+: dir :=
  mem_upward.mp (List.mem_of_mem_take (List.mem_of_mem_take hmem))

/-- A plain path is that of a directory exactly if it leads there. -/
theorem isBoundary_eq_isOutermost (hhome : HasPlainHome h) (dir : List String) :
    isBoundary h dir = isOutermost h dir := by
  have hsame : (h.home == some (Host.Path.absolute dir)) = (h.home.map h.resolve == some dir) := by
    cases hpath : h.home with
    | none => rfl
    | some home =>
        have hplain : home = .absolute (h.resolve home) := hhome home hpath
        rw [Option.map_some, Bool.eq_iff_iff, beq_iff_eq, beq_iff_eq, Option.some_inj,
          Option.some_inj]
        constructor
        · intro heq
          exact (congrArg Host.Path.names (heq.symm.trans hplain)).symm
        · rintro rfl
          exact hplain
  rw [isBoundary, isOutermost, hsame]

/-! ## The first settings file -/

theorem hasEnvFile_iff : hasEnvFile h dir ↔ h.pathExists (envFileIn dir) = .ok true := by
  rw [hasEnvFile, Host.pathExists]
  cases h.lookup (envFileIn dir) <;> simp

theorem firstEnvFile_cons (h : Host) (dir : List String) (dirs : List (List String)) :
    firstEnvFile h (dir :: dirs) = (h.pathExists (envFileIn dir) >>= fun there =>
      if there then .ok (some (envFileIn dir)) else firstEnvFile h dirs) := rfl

/-- The first directory with a settings file decides, unless one before it cannot be looked into. -/
theorem firstEnvFile_eq_ok_iff {found : Option Host.Path} :
    firstEnvFile h dirs = .ok found ↔
      (∀ dir ∈ dirs.takeWhile (!hasEnvFile h ·), h.pathExists (envFileIn dir) = .ok false) ∧
        found = (dirs.find? (hasEnvFile h)).map envFileIn := by
  induction dirs with
  | nil => simp [firstEnvFile, eq_comm]
  | cons dir rest ih =>
      rw [firstEnvFile_cons, List.find?_cons]
      by_cases hthere : hasEnvFile h dir
      · rw [hasEnvFile_iff.mp hthere]
        simp [hthere, bind, Except.bind, eq_comm]
      · have htrue : h.pathExists (envFileIn dir) ≠ .ok true := mt hasEnvFile_iff.mpr hthere
        cases hlook : h.pathExists (envFileIn dir) with
        | error e => simp [hthere, hlook, bind, Except.bind]
        | ok there =>
            obtain rfl : there = false := by
              cases there with
              | false => rfl
              | true => exact absurd hlook htrue
            simpa [hthere, hlook, bind, Except.bind] using ih

/-! ## What can be looked into -/

theorem utf8ByteSize_intercalate_concat (names : List String) (name : String) :
    ("/".intercalate (names ++ [name])).utf8ByteSize =
      (names.map fun name => name.utf8ByteSize + 1).sum + name.utf8ByteSize := by
  induction names with
  | nil => simp
  | cons first rest ih =>
      have hslash : ("/" : String).utf8ByteSize = 1 := rfl
      rw [List.cons_append, String.intercalate_cons_of_ne_nil (by simp), String.utf8ByteSize_append,
        String.utf8ByteSize_append, ih, List.map_cons, List.sum_cons, hslash]
      omega

theorem utf8ByteSize_text_envFileIn (dir : List String) :
    (envFileIn dir).text.utf8ByteSize =
      (dir.map fun name => name.utf8ByteSize + 1).sum + (1 + envFileName.utf8ByteSize) := by
  have hslash : ("/" : String).utf8ByteSize = 1 := rfl
  have hne : "/" ++ "/".intercalate (dir ++ [envFileName]) ≠ "" := by
    simp [← String.toList_inj]
  rw [envFileIn, Host.Path.absolute, Host.Path.text]
  dsimp only
  rw [if_neg hne, String.utf8ByteSize_append, utf8ByteSize_intercalate_concat, hslash]
  omega

/-- The way up leads to shorter paths. -/
theorem utf8ByteSize_text_le {above : List String} (habove : above <+: dir) :
    (envFileIn above).text.utf8ByteSize ≤ (envFileIn dir).text.utf8ByteSize := by
  obtain ⟨below, rfl⟩ := habove
  rw [utf8ByteSize_text_envFileIn, utf8ByteSize_text_envFileIn, List.map_append, List.sum_append]
  omega

theorem IsInReach.of_prefix {above : List String} (hreach : IsInReach dir)
    (habove : above <+: dir) : IsInReach above where
  names name hname := hreach.names name (habove.subset hname)
  path := (utf8ByteSize_text_le habove).trans hreach.path

theorem IsInReach.exists_pathExists (hreach : IsInReach dir) :
    ∃ there, h.pathExists (envFileIn dir) = .ok there := by
  refine Host.exists_pathExists hreach.path ?_
  rw [envFileIn, Host.Path.absolute, List.forall_mem_append, List.forall_mem_singleton]
  exact ⟨hreach.names, by decide⟩

theorem findEnvFile_eq {start : Host.Path} (hstart : start.isAddressable) :
    findEnvFile h start = firstEnvFile h (upTo (isBoundary h) (h.resolve start)) := by
  rw [findEnvFile, if_pos hstart, searched_eq_upTo]

end

/-- The settings file that is found is that of the first directory with one, from the start up to
the first directory where the search ends, which is looked into as well, and within twenty
directories. There is always such an answer if no path is too long, and else if none is before the
first settings file. The search ends where it should if the path of the home directory is plain. -/
theorem findEnvFile_nearest {h : Host} {start : Host.Path} (hstart : start.isAddressable) :
    (∀ found, findEnvFile h start = .ok found ↔
        (∀ dir ∈ (upTo (isBoundary h) (h.resolve start)).takeWhile (!hasEnvFile h ·),
          h.pathExists (envFileIn dir) = .ok false) ∧
        found = ((upTo (isBoundary h) (h.resolve start)).find? (hasEnvFile h)).map envFileIn) ∧
      (IsInReach (h.resolve start) → findEnvFile h start =
        .ok (((upTo (isBoundary h) (h.resolve start)).find? (hasEnvFile h)).map envFileIn)) ∧
      (HasPlainHome h →
        upTo (isBoundary h) (h.resolve start) = upTo (isOutermost h) (h.resolve start)) := by
  rw [findEnvFile_eq hstart]
  refine ⟨fun found => firstEnvFile_eq_ok_iff, fun hreach => ?_, fun hhome => ?_⟩
  · refine firstEnvFile_eq_ok_iff.mpr ⟨fun dir hdir => ?_, rfl⟩
    have habove := mem_upward_of_mem_upTo ((List.takeWhile_prefix _).subset hdir)
    obtain ⟨there, hlook⟩ := (hreach.of_prefix habove).exists_pathExists
    cases there with
    | false => exact hlook
    | true =>
        have hlacks := (List.all_eq_true.mp (List.all_takeWhile (p := (!hasEnvFile h ·)))) dir hdir
        rw [hasEnvFile_iff.mpr hlook] at hlacks
        cases hlacks
  · rw [funext (isBoundary_eq_isOutermost hhome)]

/-- A directory with `.git` ends the search. Its own settings file is found, and not the one in the
home directory above it. -/
theorem findEnvFile_nearest_of_nested :
    let h : Host := {
      entries := [(["u"], .directory), (["u", ".env"], .file .empty), (["u", "p"], .directory),
        (["u", "p", ".env"], .file .empty), (["u", "p", ".git"], .directory),
        (["u", "p", "a"], .directory), (["u", "p", "a", "b"], .directory)]
      workingDirectory := ["u", "p"]
      home := some (.absolute ["u"]) }
    let start : Host.Path := ⟨"", ["a", "b"]⟩
    start.isAddressable ∧ IsInReach (h.resolve start) ∧ HasPlainHome h ∧
      upTo (isOutermost h) (h.resolve start) =
        [["u", "p", "a", "b"], ["u", "p", "a"], ["u", "p"]] ∧
      findEnvFile h start = .ok (some (.absolute ["u", "p", ".env"])) := by
  intro h start
  have hstart : start.isAddressable := Host.isAddressable_iff.mpr (by decide)
  have hreach : IsInReach (h.resolve start) := ⟨by decide, by decide⟩
  have hhome : HasPlainHome h := by
    rintro home ⟨⟩
    rfl
  have hdirs : upTo (isOutermost h) (h.resolve start) =
      [["u", "p", "a", "b"], ["u", "p", "a"], ["u", "p"]] := by decide +kernel
  obtain ⟨-, hfinds, hends⟩ := findEnvFile_nearest (h := h) hstart
  refine ⟨hstart, hreach, hhome, hdirs, ?_⟩
  rw [hfinds hreach, hends hhome, hdirs]
  simp only [List.find?, hasEnvFile, Host.lookup, Host.Path.isAddressable,
    String.contains_char_eq]
  rfl

/-- The path of the home directory leads there by a detour, so that the search goes on above it. -/
theorem findEnvFile_above_home :
    ∃ (h : Host) (start : Host.Path),
      h.home = some (.absolute ["u", "a", "..", "b"]) ∧
      h.lookup (.absolute ["u", "a", "..", "b"]) = .found .directory ∧
      h.resolve (.absolute ["u", "a", "..", "b"]) = ["u", "b"] ∧
      upTo (isOutermost h) (h.resolve start) = [["u", "b", "c"], ["u", "b"]] ∧
      (upTo (isOutermost h) (h.resolve start)).find? (hasEnvFile h) = none ∧
      findEnvFile h start = .ok (some (.absolute ["u", ".env"])) := by
  let h : Host := {
    entries := [(["u"], .directory), (["u", ".env"], .file .empty), (["u", "a"], .directory),
      (["u", "b"], .directory), (["u", "b", "c"], .directory)]
    workingDirectory := ["u"]
    home := some (.absolute ["u", "a", "..", "b"]) }
  let start : Host.Path := ⟨"", ["b", "c"]⟩
  have hstart : start.isAddressable := Host.isAddressable_iff.mpr (by decide)
  have houtermost : upTo (isOutermost h) (h.resolve start) = [["u", "b", "c"], ["u", "b"]] := by
    decide +kernel
  have hboundary : upTo (isBoundary h) (h.resolve start) =
      [["u", "b", "c"], ["u", "b"], ["u"], []] := by decide +kernel
  refine ⟨h, start, rfl, ?_, rfl, houtermost, ?_, ?_⟩
  · simp only [Host.lookup, Host.Path.isAddressable, String.contains_char_eq]
    rfl
  · rw [houtermost]
    simp only [List.find?, hasEnvFile, Host.lookup, Host.Path.isAddressable,
      String.contains_char_eq]
    rfl
  · rw [findEnvFile_eq hstart, hboundary]
    simp only [firstEnvFile, Host.pathExists, Host.lookup, Host.Path.isAddressable,
      String.contains_char_eq]
    rfl

end TraceExplorer.Config
