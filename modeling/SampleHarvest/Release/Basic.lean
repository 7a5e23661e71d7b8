import SampleHarvest.Dialect.Rules

/-!
# Releases

The release whose samples are harvested has a tag, a package and a version. The folder of the
package, needed in links, is told from the package name by the custom of each language unless it is
given.

A release goes into the ledger under a name, which the dialect forms unless it is given.
-/

namespace SampleHarvest

/-- The release whose samples are harvested. -/
structure ReleaseInfo where
  tag : Text
  package : Text
  version : Text
  sdkName : Text
  deriving DecidableEq, Repr

/-- The folder that a package customarily has. -/
def Dialect.sdkName (dialect : Dialect) (package : Text) : Text :=
  match dialect with
  | .java =>
    if package = "azure-resourcemanager" then "resourcemanager"
    else package.dropLead "azure-resourcemanager-"
  | .javaScript => package.dropLead "@azure/arm-"
  | .go =>
    match (Text.splitOn '/' package).reverse with
    | _ :: folder :: _ => folder
    | _ => package

/-- The name under which a release is recorded unless another one is given. -/
def Dialect.releaseName (dialect : Dialect) (package version : Text) : Text :=
  match dialect with
  | .go => "github.com/Azure/azure-sdk-for-go/" ++ package ++ "@" ++ version
  | .javaScript => package ++ "@" ++ version
  | .java => "com.azure.resourcemanager:" ++ package ++ ":" ++ version

/-- A release, with the customary folder unless one is given. -/
def ReleaseInfo.of (dialect : Dialect) (tag package version : Text) (sdkName? : Option Text) :
    ReleaseInfo :=
  { tag, package, version, sdkName := sdkName?.getD (dialect.sdkName package) }

end SampleHarvest
