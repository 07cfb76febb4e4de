import UpdateProtocol.Files
import UpdateProtocol.Proofs.Markup.Kept
import UpdateProtocol.Proofs.Table
import UpdateProtocol.Proofs.Text.Utf8

namespace UpdateProtocol.Files

variable {fs written : Files} {place done found : Location} {name : String} {rest : Location}
  {content : ByteArray}

section Resolving

def follow? (done : Location) (name : String) : Option Location :=
  if Location.stays name then some done
  else if name = ".." then some done.dropLast
  else if maxName < name.utf8ByteSize then none
  else some (done ++ [name])

theorem resolve_cons_eq_ok_iff : fs.resolve done (name :: rest) = .ok found ↔
    fs.entry? done = some .directory ∧
      ∃ next, follow? done name = some next ∧ fs.resolve next rest = .ok found := by
  rw [resolve, follow?]
  split
  next hdone => simp [hdone]
  next hdone => simp [hdone]
  next hdone =>
    rw [hdone]
    split
    · simp
    split
    · simp
    split <;> simp

theorem resolve_mono (h : ∀ place, fs.entry? place = some .directory →
    written.entry? place = some .directory) (hfound : fs.resolve done place = .ok found) :
    written.resolve done place = .ok found := by
  induction place generalizing done with
  | nil => exact hfound
  | cons name rest ih =>
    obtain ⟨hdone, next, hnext, hrest⟩ := resolve_cons_eq_ok_iff.1 hfound
    exact resolve_cons_eq_ok_iff.2 ⟨h done hdone, next, hnext, ih hrest⟩

end Resolving

section Writing

theorem write_eq_ok (h : fs.write place content = .ok written) : ∃ found,
    fs.locate place = .ok found ∧ fs.entry? found ≠ some .directory ∧
      written = (found, .file content) :: fs.erase found := by
  obtain ⟨found, hfound, hrest⟩ := ok_of_bind h
  split at hrest
  next => cases hrest
  next hslashes =>
    rw [ne_eq, not_not] at hslashes
    rw [hslashes] at hfound
    split at hrest
    next => cases hrest
    next hother =>
      cases hrest
      exact ⟨found, hfound, hother, rfl⟩

theorem ne_nil_of_entry? (h : fs.entry? found ≠ some .directory) : found ≠ [] := by
  rintro rfl
  exact h rfl

theorem lookup_written (found place : Location) (entry : FileEntry) :
    ((found, entry) :: fs.erase found).lookup place =
      if place = found then some entry else fs.lookup place := by
  rw [Table.lookup_put, erase, Table.lookup_drop]
  split <;> rfl

theorem entry?_written (hfound : found ≠ []) (place : Location) (entry : FileEntry) :
    entry? ((found, entry) :: fs.erase found) place =
      if place = found then some entry else fs.entry? place := by
  cases place with
  | nil => rw [if_neg hfound.symm]; rfl
  | cons name rest => exact lookup_written found (name :: rest) entry

theorem read_written (h : fs.write place content = .ok written) :
    written.read place = .ok content := by
  obtain ⟨found, hlocate, hentry, rfl⟩ := write_eq_ok h
  have hne := ne_nil_of_entry? hentry
  have hkept : ∀ place, fs.entry? place = some .directory →
      entry? ((found, .file content) :: fs.erase found) place = some .directory := by
    intro place hplace
    have hother : place ≠ found := by
      rintro rfl
      exact hentry hplace
    rwa [entry?_written hne, if_neg hother]
  have hlocated : locate ((found, .file content) :: fs.erase found) place = .ok found := by
    rw [locate] at hlocate ⊢
    split at hlocate
    next => cases hlocate
    next hnull =>
      rw [if_neg hnull]
      exact resolve_mono hkept hlocate
  simp only [read, hlocated, bind, Except.bind]
  rw [entry?_written hne, if_pos rfl]

theorem readText_written {text : String} (h : fs.write place text.toUTF8 = .ok written) :
    written.readText place = .ok text := by
  simp only [readText, read_written h, bind, Except.bind, Text.ofUtf8_toUTF8]

end Writing

section Directories

theorem resolve_filter (h : fs.resolve done place = .ok found) :
    fs.resolve done (place.filter fun name => !Location.stays name) = .ok found := by
  induction place generalizing done with
  | nil => exact h
  | cons name rest ih =>
    obtain ⟨hdone, next, hnext, hrest⟩ := resolve_cons_eq_ok_iff.1 h
    by_cases hstays : Location.stays name
    · rw [follow?, if_pos hstays] at hnext
      cases hnext
      rw [List.filter_cons_of_neg (by simp [hstays])]
      exact ih hrest
    · rw [List.filter_cons_of_pos (by simp [hstays])]
      exact resolve_cons_eq_ok_iff.2 ⟨hdone, next, hnext, ih hrest⟩

theorem makeBelow_of_resolve {last : String} (hstays : ∀ name ∈ place, Location.stays name = false)
    (h : fs.resolve done (place ++ [last]) = .ok found) : fs.makeBelow done place = .ok fs := by
  induction place generalizing done with
  | nil => rfl
  | cons name rest ih =>
    obtain ⟨hname, hmore⟩ := List.forall_mem_cons.1 hstays
    obtain ⟨hdone, next, hnext, hrest⟩ := resolve_cons_eq_ok_iff.1 h
    rw [follow?, hname, if_neg Bool.false_ne_true] at hnext
    rw [makeBelow]
    split at hnext
    next hup =>
      cases hnext
      rw [if_pos hup]
      exact ih hmore hrest
    next hup =>
      split at hnext
      next => cases hnext
      next =>
        cases hnext
        have hthere : fs.entry? (done ++ [name]) = some .directory := by
          cases rest with
          | nil => exact (resolve_cons_eq_ok_iff.1 hrest).1
          | cons next rest => exact (resolve_cons_eq_ok_iff.1 hrest).1
        rw [if_neg hup, hthere]
        exact ih hmore hrest

theorem hasNull_parent (h : ¬place.hasNull = true) : ¬place.parent.hasNull = true := by
  rw [Location.hasNull, List.any_eq_true] at h ⊢
  rintro ⟨name, hname, hnull⟩
  exact h ⟨name, (List.mem_filter.1 (List.dropLast_subset _ hname)).1, hnull⟩

theorem makeDirectories_of_read (h : fs.read place = .ok content) :
    fs.makeDirectories place.parent = .ok fs := by
  obtain ⟨found, hlocate, hread⟩ := ok_of_bind h
  rw [locate] at hlocate
  split at hlocate
  next => cases hlocate
  next hnull =>
    -- the parent leaves out the names that stay where they are, reading goes through them
    have hfilter := resolve_filter hlocate
    rw [makeDirectories, if_neg (hasNull_parent hnull), Location.parent]
    cases hlast : (place.filter fun name => !Location.stays name).getLast? with
    | none =>
      rw [List.getLast?_eq_none_iff] at hlast
      rw [hlast]
      rfl
    | some last =>
      obtain ⟨before, hbefore⟩ := List.getLast?_eq_some_iff.1 hlast
      rw [hbefore] at hfilter ⊢
      rw [List.dropLast_concat]
      refine makeBelow_of_resolve (fun name hname => ?_) hfilter
      have hmem : name ∈ place.filter fun name => !Location.stays name :=
        hbefore ▸ List.mem_append_left _ hname
      simpa using (List.mem_filter.1 hmem).2

end Directories

end UpdateProtocol.Files
