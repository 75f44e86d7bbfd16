import PackageRisk.Proofs.Advisory.Merged

/-!
# Unrelated reports

Advisories are joined over shared names only. Where the advisories of one report share no name with
those of any other, merging brings out both sides as if the other were not there, wherever the one
report stands among the others.
-/

namespace List

variable {α : Type} {front middle back : List α} {p : α → Bool}

end List

namespace PackageRisk

namespace Advisory

variable {advisories : List Advisory} {a b : Advisory} {side : Advisory → Bool}

end Advisory

namespace Group

variable {advisories : List Advisory} {groups : List Group} {x : Advisory} {side : Advisory → Bool}

end Group

namespace AdvisoryReport

variable {r : AdvisoryReport} {before after : List AdvisoryReport}

end AdvisoryReport

end PackageRisk
