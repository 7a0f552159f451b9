/-
# The format of documents

The values of the project are made of data, in whatever format these are written
and read. This is the format that the command runs with.

Key definitions: `ron`.
-/
import ShadeNet.Document.Read
import ShadeNet.Document.Write

namespace ShadeNet.Document

/-- Documents as they are written and read here. -/
def ron : Ron where
  write named data := (data.toItem named).text
  read? shape document :=
    (parse? document).bind fun (x, item) => readData shape { extensions := x } item

end ShadeNet.Document
