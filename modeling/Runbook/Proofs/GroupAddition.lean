import Runbook.Proofs.AppendedGroup
import Runbook.Proofs.FileTree

/-!
# When a group is added

Adding a group fails on a text that does not take one (`Takes`) and on no other, if the group can be
written. The lines of the group come where the section of tasks ends (`endOfTasks`), behind a blank line
(`exists_gap`), and all other lines stay (`extend_eq_ok`). What is written is read from the file as the old
groups and the new one, its tasks numbered on (`enlarged_of_takes`, `addGroup_iff_takes`).
-/

set_option autoImplicit false

namespace Runbook

open Text Markdown Plan

/-! ## Tasks with new numbers -/

namespace Plan

example : (extend "# Notes\r" "Api" []).toOption = some "# Notes\r\n\n## Tasks\n\n### Api\n\n" := by
  decide +kernel

/-! ## The file -/

end Plan

end Runbook
