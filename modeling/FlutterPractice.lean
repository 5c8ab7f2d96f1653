import FlutterPractice.Machine.DatedLog
import FlutterPractice.Machine.BusyFlag
import FlutterPractice.Machine.Lifetime
import FlutterPractice.Machine.Reload
import FlutterPractice.Machine.Saturating
import FlutterPractice.Machine.Run
import FlutterPractice.Dart.Double
import FlutterPractice.Dart.Number
import FlutterPractice.Dart.Calendar
import FlutterPractice.Dart.Date
import FlutterPractice.Dart.Iso8601
import FlutterPractice.Dart.Json
import FlutterPractice.Dart.Schema
import FlutterPractice.Dart.Sum
import FlutterPractice.Dart.Text
import FlutterPractice.Dart.Rounding
import FlutterPractice.Sql.Like
import FlutterPractice.Sql.Select
import FlutterPractice.Sql.Keyed
import FlutterPractice.Calculator.Buttons
import FlutterPractice.WaterTracker.Tank
import FlutterPractice.WaterTracker.Level
import FlutterPractice.StepCounter.Page
import FlutterPractice.StepCounter.Saves
import FlutterPractice.StepCounter.History
import FlutterPractice.StepCounter.Midnight
import FlutterPractice.StepCounter.Crash
import FlutterPractice.StepCounter.Restart
import FlutterPractice.StepCounter.Reboot
import FlutterPractice.StepCounter.ClosedDay
import FlutterPractice.StepCounter.Progress
import FlutterPractice.StepCounter.Conservation
import FlutterPractice.StepCounter.Lifetime
import FlutterPractice.StepCounter.Visits
import FlutterPractice.ComplexApi.Paging
import FlutterPractice.ComplexApi.UserModel
import FlutterPractice.ComplexApi.UserCodec
import FlutterPractice.ComplexApi.Lifetime
import FlutterPractice.ComplexApi.Completeness
import FlutterPractice.Stripe.PaymentSheet
import FlutterPractice.Stripe.Payments
import FlutterPractice.Crud.ProductForms
import FlutterPractice.Crud.ProductList
import FlutterPractice.Crud.Progress
import FlutterPractice.Crud.Lifetime
import FlutterPractice.Crud.FormLifetime
import FlutterPractice.Crud.ProductsModel
import FlutterPractice.Hisabi.Calls
import FlutterPractice.Hisabi.StoredRows
import FlutterPractice.Hisabi.Queries
import FlutterPractice.Hisabi.CategoryMenu
import FlutterPractice.Hisabi.AddProduct
import FlutterPractice.Hisabi.EditRoundTrip
import FlutterPractice.Hisabi.ProductsList
import FlutterPractice.Hisabi.Submit
import FlutterPractice.Hisabi.ProductScreen
import FlutterPractice.Hisabi.Tries
import FlutterPractice.Hisabi.Catalogue
import FlutterPractice.Hisabi.Browsing
import FlutterPractice.Hisabi.Products
import FlutterPractice.Students.StudentPage
import FlutterPractice.Students.Lifetime
import FlutterPractice.Money.Ledger
import FlutterPractice.Money.Totals
import FlutterPractice.Money.InitialLoad
import FlutterPractice.Money.Lifetime
import FlutterPractice.Auth.Credentials
import FlutterPractice.Auth.Lifetime
import FlutterPractice.Disposal
import FlutterPractice.LateAnswers
