import Mathlib.Data.List.Induction
import TypedId.Proofs.Outcomes
import TypedId.Sink.Session

/-!
# Names that fit

No directory holds a name that is longer than names may be. Every operation on a tree keeps it so,
also one that fails halfway, and so does a whole session.
-/

namespace TypedId

namespace FileTree

/-- No name in the tree is too long for a directory. -/
def NamesFit (t : FileTree) : Prop :=
  ∀ here name, t.lookup (here ++ [name]) ≠ none → Text.byteLength name ≤ Path.longestName

theorem absence_eq_missing {name : Text} :
    absence name = .missing ↔ Text.byteLength name ≤ Path.longestName := by
  rw [absence]
  by_cases h : Path.longestName < Text.byteLength name
  · rw [if_pos h]
    exact iff_of_false (by decide) (by omega)
  · rw [if_neg h]
    exact iff_of_true rfl (by omega)

namespace NamesFit

variable {t t' : FileTree}

theorem put (h : t.NamesFit) {here : Path} {name : Text}
    (hname : Text.byteLength name ≤ Path.longestName) (e : Entry) :
    (t.put (here ++ [name]) e).NamesFit := by
  intro here' name' hthere
  rw [lookup_put t _ _ e (by simp)] at hthere
  split at hthere
  · next hsame =>
    have hlast : name' = name := by simpa using (List.append_inj' hsame rfl).2
    rw [hlast]
    exact hname
  · exact h here' name' hthere

/-- What is left after some entries are taken away still fits. -/
theorem filter (h : t.NamesFit) (p : Path → Bool) :
    NamesFit ⟨t.entries.filter fun e => p e.1⟩ := by
  intro here name hthere
  apply h here name
  intro hnone
  apply hthere
  have hpath : here ++ [name] ≠ [] := by simp
  rw [lookup, if_neg hpath] at hnone ⊢
  rw [lookup_filter, hnone, ite_self]

theorem removeAt (h : t.NamesFit) (p : Path) : (t.removeAt p).NamesFit :=
  h.filter fun i => !p.isPrefixOf i

theorem clear (h : t.NamesFit) (p : Path) : (t.clear p).NamesFit :=
  h.filter fun i => i = p || !p.isPrefixOf i

theorem write (h : t.NamesFit) {floor base : Path} {w : Way} {content : ByteArray}
    (hw : t.write floor base w content = .ok t') : t'.NamesFit := by
  obtain ⟨⟨here, last⟩, -, hw⟩ := bind_eq_ok.1 hw
  cases last with
  | none => cases hw
  | some name =>
    simp only at hw
    split at hw
    · cases hw
    · split at hw
      · cases hw
      · next hfile =>
        cases hw
        exact h.put (h here name (by simp [hfile])) _
      · split at hw
        · next hmissing =>
          cases hw
          exact h.put (absence_eq_missing.1 hmissing) _
        · cases hw

theorem makeDirectory (h : t.NamesFit) {steps : List Step}
    (hmade : t.makeDirectory steps = .ok t') : t'.NamesFit := by
  obtain ⟨here, -, hmade⟩ := bind_eq_ok.1 hmade
  split at hmade
  · split at hmade
    · cases hmade
    · split at hmade
      · next hmissing =>
        cases hmade
        exact h.put (absence_eq_missing.1 hmissing) _
      · cases hmade
  · cases hmade

theorem ensureDirectory (h : t.NamesFit) {steps : List Step}
    (hmade : t.ensureDirectory steps = .ok t') : t'.NamesFit := by
  rw [FileTree.ensureDirectory] at hmade
  split at hmade
  · cases hmade
    exact h
  · exact h.makeDirectory hmade

theorem makeNested (h : t.NamesFit) (ways : List (List Step)) : (t.makeNested ways).1.NamesFit := by
  induction ways generalizing t with
  | nil => exact h
  | cons inner outer ih =>
    have houter := ih h
    rw [FileTree.makeNested]
    cases hinner : t.ensureDirectory inner with
    | ok made => exact h.ensureDirectory hinner
    | error fault =>
      cases fault with
      | missing =>
        -- what was made around the directory stays, whether or not it can be made itself
        cases hnested : t.makeNested outer with
        | mk around result =>
          rw [hnested] at houter
          cases result with
          | error fault => exact houter
          | ok _ =>
            cases hagain : around.ensureDirectory inner with
            | ok made =>
              simp only [hagain]
              exact NamesFit.ensureDirectory houter hagain
            | error fault =>
              simp only [hagain]
              exact houter
      | _ => exact h

theorem makeDirectories (h : t.NamesFit) (steps : List Step) :
    (t.makeDirectories steps).1.NamesFit := h.makeNested _

theorem removeDirectory (h : t.NamesFit) (w : Way) (place : Path) (named : Bool) :
    (t.removeDirectory w place named).1.NamesFit := by
  rw [FileTree.removeDirectory]
  split
  · exact h.clear place
  · split
    · exact (h.clear place).removeAt place
    · exact h.clear place

theorem remove (h : t.NamesFit) (w : Way) : (t.remove w).1.NamesFit := by
  rw [FileTree.remove]
  split
  · exact h
  · exact h.removeDirectory w _ false
  · split
    · split
      · exact h
      · exact h.removeAt _
    · exact h.removeDirectory w _ true
    · exact h

end NamesFit
end FileTree

namespace Sink

open FileTree

variable {t t' : FileTree}

theorem namesFit_openAt (h : t.NamesFit) (root : Text) : (openAt t root).1.NamesFit := by
  have hopen : ∀ w, (openDirectory t w).1.NamesFit := by
    intro w
    have hmake := h.makeDirectories w.steps
    rw [openDirectory]
    split
    · exact h
    · split
      · split
        · next hmade =>
          rw [hmade] at hmake
          exact hmake
        · next hmade =>
          rw [hmade] at hmake
          exact hmake
      · exact h
  rw [openAt]
  cases Scratch.way root with
  | error fault => exact h
  | ok w =>
    have hw := hopen w
    cases hopened : openDirectory t w with
    | mk made result =>
      rw [hopened] at hw
      simp only [hopened]
      cases result <;> exact hw

theorem namesFit_write (h : t.NamesFit) {k : Sink} {u : SourceUnit} {o : WriteOutcome}
    (hw : k.write t u = .ok (t', o)) : t'.NamesFit := by
  obtain ⟨w, -, hw⟩ := bind_eq_ok.1 (mapError_eq_ok.1 hw)
  cases hd : k.directory with
  | none =>
    rw [hd] at hw
    cases hw
  | some base =>
    rw [hd] at hw
    obtain ⟨there, -, hw⟩ := bind_eq_ok.1 hw
    split at hw
    · cases hw
      exact h
    · obtain ⟨made, hmade, hw⟩ := bind_eq_ok.1 hw
      cases hw
      exact h.write hmade

theorem namesFit_writeAll (h : t.NamesFit) (k : Sink) (units : List SourceUnit) :
    (k.writeAll t units).1.NamesFit := by
  induction units generalizing t with
  | nil => exact h
  | cons u units ih =>
    rw [writeAll]
    cases hw : k.write t u with
    | error f => exact h
    | ok r => exact ih (namesFit_write h hw)

end Sink

namespace Session

open FileTree

/-- Whatever a session does, the names still fit. -/
theorem namesFit_step {s : Session} (h : s.tree.NamesFit) (a : Sink.Action) :
    (s.step a).1.tree.NamesFit := by
  cases a with
  | openAt root =>
    have hopen := Sink.namesFit_openAt h root
    rw [step]
    split
    · next hopened =>
      rw [hopened] at hopen
      exact hopen
    · next hopened =>
      rw [hopened] at hopen
      exact hopen
  | write unit =>
    rw [step]
    split
    · exact h
    · split
      · next hwrite => exact Sink.namesFit_write h hwrite
      · exact h
  | writeAll units =>
    rw [step]
    split
    · exact h
    · next sink _ =>
      have hall := Sink.namesFit_writeAll h sink units
      split
      · next hwrite =>
        rw [hwrite] at hall
        exact hall
      · next hwrite =>
        rw [hwrite] at hall
        exact hall
  | put path content =>
    rw [step]
    split
    · next hput =>
      obtain ⟨w, -, hwrite⟩ := bind_eq_ok.1 hput
      exact h.write hwrite
    · exact h
  | makeDirectory path =>
    rw [step]
    cases Scratch.way path with
    | error fault => exact h
    | ok w =>
      have hmake := h.makeDirectories w.steps
      cases hmade : s.tree.makeDirectories w.steps with
      | mk made result =>
        rw [hmade] at hmake
        simp only [Except.map, hmade]
        cases result <;> exact hmake
  | remove path =>
    rw [step]
    cases Scratch.way path with
    | error fault => exact h
    | ok w =>
      have hremove := h.remove w
      cases hremoved : s.tree.remove w with
      | mk left result =>
        rw [hremoved] at hremove
        simp only [Except.map, hremoved]
        cases result <;> exact hremove
  | read path => exact h
  | list => exact h

theorem namesFit_scratch : Scratch.tree.NamesFit := by
  have hempty : NamesFit {} := by
    intro here name h
    rw [FileTree.lookup, if_neg (by simp)] at h
    exact absurd rfl h
  change (FileTree.put {} ([] ++ ["/temporary".toList]) .directory).NamesFit
  exact hempty.put (by decide) .directory

/-- The tree of every session that starts in an empty scratch directory. -/
theorem namesFit_foldl (actions : List Sink.Action) :
    (actions.foldl (fun (s : Session) a => (s.step a).1) {}).tree.NamesFit := by
  induction actions using List.reverseRecOn with
  | nil => exact namesFit_scratch
  | append_singleton actions a ih =>
    rw [List.foldl_append]
    exact namesFit_step ih a

end Session
end TypedId
