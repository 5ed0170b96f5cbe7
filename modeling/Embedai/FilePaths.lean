import Embedai.ListSplits

namespace Embedai.FilePaths

def joinPath (dir name : String) : String :=
  if dir = "" ∨ dir.toList.getLast? = some '/' then dir ++ name else dir ++ "/" ++ name

theorem exists_joinPath (dir : String) : ∃ start, ∀ name, joinPath dir name = start ++ name := by
  by_cases hdir : dir = "" ∨ dir.toList.getLast? = some '/'
  · exact ⟨dir, fun name => if_pos hdir⟩
  · exact ⟨dir ++ "/", fun name => if_neg hdir⟩

theorem joinPath_injective (dir : String) : Function.Injective (joinPath dir) := by
  intro a b h
  obtain ⟨start, hstart⟩ := exists_joinPath dir
  rw [hstart, hstart] at h
  exact (String.append_right_inj _).mp h

theorem joinPath_nested {dir a b x y : String} (ha : a ≠ "") (hb : b ≠ "") (hslash : '/' ∉ a.toList)
    (hslash' : '/' ∉ b.toList) (h : joinPath (joinPath dir a) x = joinPath (joinPath dir b) y) : a = b := by
  obtain ⟨start, hstart⟩ := exists_joinPath dir
  have hjoin {c : String} (hc : c ≠ "") (hnone : '/' ∉ c.toList) (z : String) :
      joinPath (joinPath dir c) z = start ++ c ++ "/" ++ z := by
    have hlist : c.toList ≠ [] := fun he => hc (String.toList_eq_nil_iff.mp he)
    rw [joinPath, hstart, if_neg]
    rintro (hempty | hlast)
    · exact hc (String.append_eq_empty_iff.mp hempty).2
    · rw [String.toList_append, List.getLast?_append_of_ne_nil _ hlist] at hlast
      exact hnone (List.mem_of_getLast? hlast)
  rw [hjoin ha hslash, hjoin hb hslash'] at h
  have hlist := congrArg String.toList h
  simp only [String.toList_append, List.append_assoc] at hlist
  exact String.toList_inj.mp (ListSplits.eq_of_append_cons hslash hslash' (List.append_cancel_left hlist))

end Embedai.FilePaths
