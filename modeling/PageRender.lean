import PageRender.Blackboard.Handles
import PageRender.Json.Access
import PageRender.Kind.Script
import PageRender.Main
import PageRender.Proofs.RenderTree.Unmoved
import PageRender.Proofs.Dispatch.Failure
import PageRender.Proofs.Dispatch.Passage
import PageRender.Proofs.Plan.Known
import PageRender.Proofs.Lifecycle.Blackboard
import PageRender.Proofs.Lifecycle.Inherent
import PageRender.Proofs.Service.Preview
import PageRender.Proofs.Service.Refusal
import PageRender.Proofs.Service.Delivery
import PageRender.Proofs.Service.Independence
import PageRender.Proofs.Service.Frame
import PageRender.Proofs.Service.Lookup
import PageRender.Proofs.Service.Session
import PageRender.Proofs.Service.Opening
import PageRender.Proofs.Plan.Asked
import PageRender.Proofs.Service.Stale
import PageRender.Proofs.Dispatch.Permits
import PageRender.Proofs.Service.Accounts
import PageRender.Proofs.Service.Plain
import PageRender.Proofs.Page.RoundTrip
import PageRender.Proofs.Binding.Grammar
import PageRender.Proofs.RenderTree.Reordered
import PageRender.Proofs.RenderTree.Subtree
import PageRender.Proofs.Binding.Filled
import PageRender.Proofs.Lifecycle.Ending
import PageRender.Proofs.Lifecycle.Shown
import PageRender.Proofs.Lifecycle.Registered
import PageRender.Proofs.Lifecycle.Repeated
import PageRender.Proofs.Fault
import PageRender.Proofs.Catalog.History
