import RandomTables.Disk.Fault
import RandomTables.Proofs.Path.Segments

/-!
# Path names that can be followed

A path name can be written if each of its names can, and how many bytes it takes is the sum over its
names and slashes. So a path name can be followed whenever a longer one that differs from it in the
last name can.
-/
namespace RandomTables

namespace PathName
variable {s t name : Text} {names : List Text} {p : PathName}

/-! ## Writing -/

theorem writingFault?_eq_none_iff :
    writingFault? s = none ↔ ∀ c ∈ s, c.pathBytes?.isSome ∧ c ≠ '\x00' := by
  unfold writingFault?
  by_cases hhalf : s.any fun c => c.pathBytes?.isNone
  · obtain ⟨c, hc, hnone⟩ := List.any_eq_true.1 hhalf
    rw [if_pos hhalf]
    refine iff_of_false nofun fun h => ?_
    have hsome := (h c hc).1
    rw [Option.isNone_iff_eq_none.1 hnone] at hsome
    cases hsome
  · have hsome : ∀ c ∈ s, c.pathBytes?.isSome := by
      intro c hc
      by_contra hnone
      exact hhalf (List.any_eq_true.2 ⟨c, hc, by simpa using hnone⟩)
    rw [if_neg hhalf]
    by_cases hzero : s.contains '\x00'
    · rw [if_pos hzero]
      exact iff_of_false nofun fun h => (h _ (by simpa using hzero)).2 rfl
    · rw [if_neg hzero]
      refine iff_of_true rfl fun c hc => ⟨hsome c hc, ?_⟩
      rintro rfl
      exact hzero (by simpa using hc)

/-- A path name can be written exactly if each of its names can. -/
theorem writingFault?_text_iff :
    writingFault? p.text = none ↔ ∀ name ∈ p.names, writingFault? name = none := by
  have hslash : (CodePoint.char '/').pathBytes?.isSome ∧ CodePoint.char '/' ≠ '\x00' := by decide
  simp only [writingFault?_eq_none_iff]
  by_cases hempty : p.slashes = 0 ∧ p.names = []
  · rw [text, if_pos (by simpa using hempty), hempty.2]
    exact iff_of_true (by decide) nofun
  rw [text, if_neg (by simpa using hempty)]
  constructor
  · intro h name hname c hc
    by_cases hsep : c = '/'
    · exact hsep ▸ hslash
    · have hjoined := (Text.mem_joinWith_iff (mt List.mem_singleton.1 hsep)).2 ⟨name, hname, hc⟩
      exact h c (List.mem_append_right _ hjoined)
  · intro h c hc
    by_cases hsep : c = '/'
    · exact hsep ▸ hslash
    · obtain hc | hc := List.mem_append.1 hc
      · exact absurd (List.eq_of_mem_replicate hc) hsep
      · obtain ⟨name, hname, hc⟩ := (Text.mem_joinWith_iff (mt List.mem_singleton.1 hsep)).1 hc
        exact h name hname c hc

theorem fault?_eq_none_iff :
    p.fault? = none ↔ writingFault? p.text = none ∧ byteCount p.text ≤ maxPathBytes := by
  unfold fault?
  cases writingFault? p.text with
  | some kind => simp
  | none => simp

/-- A path name that can be written can be followed, or is too long. -/
theorem fault?_cases (h : writingFault? p.text = none) :
    p.fault? = none ∨ p.fault? = some .longName := by
  unfold fault?
  rw [h]
  by_cases hlong : byteCount p.text > maxPathBytes
  · exact .inr (if_pos hlong)
  · exact .inl (if_neg hlong)

/-! ## Bytes -/

@[simp] theorem byteCount_append (s t : Text) : byteCount (s ++ t) = byteCount s + byteCount t := by
  change (List.map _ (s ++ t)).sum = (List.map _ s).sum + (List.map _ t).sum
  rw [List.map_append, List.sum_append]

theorem spelled_eq_joinWith (hne : names ≠ []) :
    Path.spelled names = "/" ++ Text.joinWith "/" names := by
  fun_induction Text.joinWith "/" names with
  | case1 => exact absurd rfl hne
  | case2 piece => exact congrArg _ (List.append_nil piece)
  | case3 piece pieces hrest ih =>
    have hpieces : Path.spelled pieces = "/" ++ Text.joinWith "/" pieces := ih hrest
    rw [Path.spelled_cons, hpieces, ← List.append_assoc]
    rfl

theorem text_ofPlace (hne : names ≠ []) : (ofPlace names).text = Path.spelled names := by
  rw [spelled_eq_joinWith hne]
  rfl

/-- A path name with a last name that takes no more bytes can be followed as well. -/
theorem fault?_concat {init : List Text} {last other : Text}
    (h : (ofPlace (init ++ [last])).fault? = none) (hother : writingFault? other = none)
    (hbytes : byteCount other ≤ byteCount last) : (ofPlace (init ++ [other])).fault? = none := by
  have hne : ∀ name : Text, init ++ [name] ≠ [] := by simp
  obtain ⟨hwritable, hshort⟩ := fault?_eq_none_iff.1 h
  refine fault?_eq_none_iff.2 ⟨writingFault?_text_iff.2 ?_, ?_⟩
  · intro name hname
    obtain hinit | hlast := List.mem_append.1 hname
    · exact writingFault?_text_iff.1 hwritable name (List.mem_append_left _ hinit)
    · rw [List.mem_singleton.1 hlast]
      exact hother
  · have hbyte : ∀ name : Text, byteCount (ofPlace (init ++ [name])).text =
        byteCount (Path.spelled init) + (1 + byteCount name) := by
      intro name
      have hlast : Path.spelled [name] = "/" ++ name := congrArg _ (List.append_nil name)
      rw [text_ofPlace (hne name), Path.spelled_append, hlast, byteCount_append, byteCount_append]
      rfl
    rw [hbyte] at hshort ⊢
    omega

end PathName
end RandomTables
