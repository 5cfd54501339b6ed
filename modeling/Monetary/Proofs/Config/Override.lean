import Monetary.Proofs.Config.Precedence

/-!
# One configuration in place of another

A configuration keeps its keys in the order in which they were first given a text, each of them once.
Because no key stands twice, it does not matter for a configuration that takes over the texts of
another one whether it is given only the last text under each key, or one after the other all the
texts from which the other one was made.
-/

namespace Monetary.Config

/-- The keys of some entries, in order. -/
def keysOf (entries : List (String × String)) : List String :=
  entries.map Prod.fst

/-- A configuration with the entries of another one in place of its own under the same keys. -/
def overriddenBy (config other : Config) : Config :=
  other.entries.foldl (fun config entry => config.set entry.1 entry.2) config

variable {key other : String} {entries : List (String × String)}

/-- A key that is given a text is there afterwards, at the end if it was not there before. -/
theorem keysOf_setEntry (key value : String) (entries : List (String × String)) :
    keysOf (setEntry key value entries) =
      if key ∈ keysOf entries then keysOf entries else keysOf entries ++ [key] := by
  induction entries with
  | nil => rfl
  | cons entry entries ih =>
    obtain ⟨k, v⟩ := entry
    unfold keysOf at ih ⊢
    by_cases hk : k = key
    · simp [setEntry, hk]
    · simp only [setEntry, if_neg hk, List.map_cons, ih, List.mem_cons, Ne.symm hk, false_or]
      split <;> rfl

/-- A key that is given two texts keeps the second one. -/
theorem setEntry_setEntry (key first second : String) (entries : List (String × String)) :
    setEntry key second (setEntry key first entries) = setEntry key second entries := by
  induction entries with
  | nil => simp [setEntry]
  | cons entry entries ih =>
    obtain ⟨k, v⟩ := entry
    by_cases hk : k = key
    · simp [setEntry, hk]
    · simp [setEntry, hk, ih]

/-- The texts of two keys may be given in either order if one of the keys has its place already. -/
theorem setEntry_comm (hkey : key ∈ keysOf entries) (hne : key ≠ other) (first second : String) :
    setEntry other second (setEntry key first entries) =
      setEntry key first (setEntry other second entries) := by
  induction entries with
  | nil => cases hkey
  | cons entry entries ih =>
    obtain ⟨k, v⟩ := entry
    by_cases hk : k = key
    · subst hk
      simp [setEntry, hne]
    · have hrest : key ∈ keysOf entries := (List.mem_cons.mp hkey).resolve_left (Ne.symm hk)
      by_cases ho : k = other
      · subst ho
        simp [setEntry, hk]
      · simp [setEntry, hk, ho, ih hrest]

/-- The keys after one of them is given a text are this one and those that were there before. -/
theorem mem_keysOf_setEntry (value : String) :
    other ∈ keysOf (setEntry key value entries) ↔ other = key ∨ other ∈ keysOf entries := by
  rw [keysOf_setEntry]
  split
  · rename_i hkey
    exact ⟨.inr, fun h => h.elim (fun heq => heq ▸ hkey) id⟩
  · rw [List.mem_append, List.mem_singleton, or_comm]

/-- If no key stands twice, none does after a key is given a text. -/
theorem nodup_keysOf_setEntry (h : (keysOf entries).Nodup) (key value : String) :
    (keysOf (setEntry key value entries)).Nodup := by
  rw [keysOf_setEntry]
  split
  · exact h
  · rename_i hnew
    refine List.nodup_append.mpr ⟨h, List.pairwise_singleton _ key, fun other hother last hlast => ?_⟩
    rintro rfl
    exact hnew (List.mem_singleton.mp hlast ▸ hother)

/-- A key that has its place may be given a text before the other keys are, or after them. -/
theorem set_foldl_set {config : Config} (hplace : key ∈ keysOf config.entries)
    (hothers : key ∉ keysOf entries) (value : String) :
    (entries.foldl (fun config entry => config.set entry.1 entry.2) config).set key value =
      entries.foldl (fun config entry => config.set entry.1 entry.2) (config.set key value) := by
  induction entries generalizing config with
  | nil => rfl
  | cons entry entries ih =>
    obtain ⟨hne, hrest⟩ := not_or.mp (mt List.mem_cons.mpr hothers)
    have hswap : (config.set entry.1 entry.2).set key value =
        (config.set key value).set entry.1 entry.2 :=
      congrArg mk (setEntry_comm hplace hne value entry.2).symm
    rw [List.foldl_cons, List.foldl_cons, ← hswap]
    exact ih ((mem_keysOf_setEntry _).mpr (.inr hplace)) hrest

/-- Where no key stands twice, one more text may be added to the entries that override a
configuration, or afterwards. -/
theorem foldl_set_setEntry (hdistinct : (keysOf entries).Nodup) (config : Config)
    (key value : String) :
    (setEntry key value entries).foldl (fun config entry => config.set entry.1 entry.2) config =
      (entries.foldl (fun config entry => config.set entry.1 entry.2) config).set key value := by
  induction entries generalizing config with
  | nil => rfl
  | cons entry entries ih =>
    obtain ⟨k, v⟩ := entry
    obtain ⟨hnew, hdistinct⟩ := List.nodup_cons.mp hdistinct
    by_cases hk : k = key
    · subst hk
      have hplace : k ∈ keysOf (config.set k v).entries := (mem_keysOf_setEntry v).mpr (.inl rfl)
      have hlast : (config.set k v).set k value = config.set k value :=
        congrArg mk (setEntry_setEntry k v value config.entries)
      rw [setEntry, if_pos rfl, List.foldl_cons, List.foldl_cons, set_foldl_set hplace hnew, hlast]
    · rw [setEntry, if_neg hk]
      exact ih hdistinct _

/-- Entries that were added to an overriding configuration may be added afterwards. -/
theorem overriddenBy_foldl_set (config : Config) {latter : Config}
    (hdistinct : (keysOf latter.entries).Nodup) (pairs : List (String × String)) :
    config.overriddenBy (pairs.foldl (fun config pair => config.set pair.1 pair.2) latter) =
      pairs.foldl (fun config pair => config.set pair.1 pair.2) (config.overriddenBy latter) := by
  induction pairs generalizing latter with
  | nil => rfl
  | cons pair pairs ih =>
    have hset : config.overriddenBy (latter.set pair.1 pair.2) =
        (config.overriddenBy latter).set pair.1 pair.2 :=
      foldl_set_setEntry hdistinct config pair.1 pair.2
    rw [List.foldl_cons, List.foldl_cons, ← hset]
    exact ih (nodup_keysOf_setEntry hdistinct _ _)

/-- A configuration is overridden by one of some entries as by these entries one after the other. -/
theorem overriddenBy_ofPairs (config : Config) (pairs : List (String × String)) :
    config.overriddenBy (ofPairs pairs) =
      pairs.foldl (fun config pair => config.set pair.1 pair.2) config :=
  @overriddenBy_foldl_set config empty List.nodup_nil pairs

/-- The configuration of some entries, overridden by that of others, is the one of them all. -/
theorem ofPairs_overriddenBy_ofPairs (first second : List (String × String)) :
    (ofPairs first).overriddenBy (ofPairs second) = ofPairs (first ++ second) := by
  rw [overriddenBy_ofPairs, ofPairs, ofPairs, List.foldl_append]

/-- A configuration that is overridden gives the text of the other one to a key, or else its own. -/
theorem get?_overriddenBy_ofPairs (config : Config) (pairs : List (String × String))
    (key : String) : (config.overriddenBy (ofPairs pairs)).get? key =
      ((ofPairs pairs).get? key).or (config.get? key) := by
  rw [overriddenBy_ofPairs, get?_foldl_set, get?_ofPairs]

end Monetary.Config
